import DriverIdl.Proofs.Parcel.Stream

/-!
# The bytes behind what was read

Bytes that come from elsewhere need not have been written by anyone.  `Takes` says what the bytes
that a successful read took have to do with its answer, whatever the parcel holds.  Each primitive
of the format takes exactly the bytes that are written for its answer, and the statement composes
along sequences and loops of reads.
-/

namespace DriverIdl.Parcel

theorem Reader.eq_between (reader : Reader) :
    reader = .between (reader.data.toList.take reader.index)
      (reader.data.toList.drop reader.index) := by
  obtain ⟨data, index, bound⟩ := reader
  simp [Reader.between, bound]

/-- The bytes between a place of a parcel and a later one. -/
def Reader.taken (reader after : Reader) : List UInt8 :=
  (reader.data.extract reader.index after.index).toList

theorem Reader.taken_between (before bytes suffix : List UInt8) :
    (Reader.between before (bytes ++ suffix)).taken (Reader.between (before ++ bytes) suffix) =
      bytes := by
  simp [Reader.taken, Reader.between]

/-- Whenever an operation gives an answer, it stays in its parcel, and the bytes that it took are
related to the answer. -/
def Takes {failure α : Type} (read : Read failure α) (relation : α → List UInt8 → Prop) : Prop :=
  ∀ before rest value after, read (Reader.between before rest) = .ok value after →
      ∃ bytes suffix, rest = bytes ++ suffix ∧ after = Reader.between (before ++ bytes) suffix ∧
        relation value bytes

section Composition

variable {failure adapted α β : Type}

/-- What an operation takes, at a place that is not taken apart. -/
theorem Takes.at {read : Read failure α} {relation : α → List UInt8 → Prop}
    (takes : Takes read relation) {reader after : Reader} {value : α}
    (run : read reader = .ok value after) :
    after.data = reader.data ∧ reader.index ≤ after.index ∧
      relation value (reader.taken after) := by
  rw [reader.eq_between] at run ⊢
  obtain ⟨bytes, suffix, split, rfl, related⟩ := takes _ _ _ _ run
  rw [split, Reader.taken_between]
  exact ⟨by simp [Reader.between], by simp [Reader.between], related⟩

theorem Takes.pure {relation : α → List UInt8 → Prop} {value : α} (related : relation value []) :
    Takes (pure value : Read failure α) relation := by
  rintro before rest _ _ ⟨⟩
  exact ⟨[], rest, rfl, by rw [List.append_nil], related⟩

theorem Takes.throw {relation : α → List UInt8 → Prop} (reason : failure) :
    Takes (throw reason : Read failure α) relation := by
  rintro before rest value after ⟨⟩

theorem Takes.bind {first : Read failure α} {next : α → Read failure β}
    {relation : α → List UInt8 → Prop} {goal : β → List UInt8 → Prop}
    (start : Takes first relation)
    (finish : ∀ value bytes, relation value bytes →
      Takes (next value) fun result rest => goal result (bytes ++ rest)) :
    Takes (first >>= next) goal := by
  intro before rest result after run
  obtain ⟨value, middle, runFirst, runNext⟩ := bind_eq_ok.mp run
  obtain ⟨bytes, suffix, rfl, rfl, related⟩ := start _ _ _ _ runFirst
  obtain ⟨more, last, rfl, rfl, reached⟩ := finish value bytes related _ _ _ _ runNext
  exact ⟨bytes ++ more, last, by rw [List.append_assoc], by rw [List.append_assoc], reached⟩

/-- Whatever is computed from an answer takes no bytes. -/
theorem Takes.map {read : Read failure α} {relation : α → List UInt8 → Prop}
    {goal : β → List UInt8 → Prop} (start : Takes read relation) {convert : α → β}
    (implies : ∀ value bytes, relation value bytes → goal (convert value) bytes) :
    Takes (read >>= fun value => Pure.pure (convert value)) goal := by
  apply start.bind
  intro value bytes related
  apply Takes.pure
  rw [List.append_nil]
  exact implies value bytes related

theorem Takes.mono {read : Read failure α} {relation goal : α → List UInt8 → Prop}
    (takes : Takes read relation)
    (implies : ∀ value bytes, relation value bytes → goal value bytes) : Takes read goal := by
  intro before rest value after run
  obtain ⟨bytes, suffix, split, reached, related⟩ := takes _ _ _ _ run
  exact ⟨bytes, suffix, split, reached, implies value bytes related⟩

/-- Two statements about the same operation are about the same bytes. -/
theorem Takes.and {read : Read failure α} {first second : α → List UInt8 → Prop}
    (takesFirst : Takes read first) (takesSecond : Takes read second) :
    Takes read fun value bytes => first value bytes ∧ second value bytes := by
  intro before rest value after run
  obtain ⟨bytes, suffix, split, reached, holdsFirst⟩ := takesFirst _ _ _ _ run
  have holdsSecond := (takesSecond.at run).2.2
  rw [split, reached, Reader.taken_between] at holdsSecond
  exact ⟨bytes, suffix, split, reached, holdsFirst, holdsSecond⟩

theorem Takes.adapt {read : Read failure α} {relation : α → List UInt8 → Prop}
    (takes : Takes read relation) (adapt : failure → adapted) :
    Takes (read.adaptExcept adapt) relation :=
  fun before rest value after run => takes before rest value after (adaptExcept_eq_ok.mp run)

end Composition

section Primitives

variable {failure : Type}

theorem takes_raw (count : Nat) :
    Takes (Read.raw count) fun content bytes => content = bytes ∧ bytes.length = count := by
  intro before rest content after run
  have enough : count ≤ rest.length := by simpa using (raw_eq_ok run).2.2
  obtain ⟨bytes, suffix, rfl, rfl⟩ :
      ∃ bytes suffix : List UInt8, rest = bytes ++ suffix ∧ bytes.length = count :=
    ⟨rest.take count, rest.drop count, (List.take_append_drop count rest).symm,
      List.length_take_of_le enough⟩
  have fits : bytes.length ≤ (Reader.between before (bytes ++ suffix)).remaining := by simp
  rw [Read.raw, dif_pos fits, Reader.ahead_between, Reader.advance_between] at run
  injection run with same reached
  exact ⟨bytes, suffix, rfl, reached.symm, same.symm, rfl⟩

/-- A number that fits a width, and the bytes that it is stored in. -/
def Stores (width number : Nat) (bytes : List UInt8) : Prop :=
  number < Nat.pow 256 width ∧ LittleEndian.encode width number = bytes

theorem Stores.appends {width number : Nat} {bytes : List UInt8}
    (stores : Stores width number bytes) :
    Appends (Write.number width number : Write failure Unit) bytes := by
  obtain ⟨-, rfl⟩ := stores
  exact appends_raw _

/-- The bit pattern that is made from a stored number is stored in the same bytes. -/
theorem Stores.appends_pattern {width number : Nat} {bytes : List UInt8}
    (stores : Stores width number bytes) :
    Appends (Write.number width (BitVec.ofNat (8 * width) number).toNat : Write failure Unit)
      bytes := by
  have small : number < 2 ^ (8 * width) :=
    Nat.lt_of_lt_of_eq stores.1 (Nat.pow_mul 2 8 width).symm
  rw [BitVec.toNat_ofNat, Nat.mod_eq_of_lt small]
  exact stores.appends

theorem takes_number (width : Nat) : Takes (Read.number width) (Stores width) := by
  apply (takes_raw width).map
  rintro bytes _ ⟨rfl, rfl⟩
  have restored := LittleEndian.encode_decode bytes
  have small := LittleEndian.decode_encode bytes.length (LittleEndian.decode bytes)
  rw [restored] at small
  exact ⟨small ▸ Nat.mod_lt _ (Nat.pow_pos (by decide)), restored⟩

theorem takes_bool :
    Takes Read.bool fun truth bytes => Appends (Write.bool truth : Write failure Unit) bytes := by
  apply (takes_raw 1).bind
  rintro _ bytes ⟨rfl, -⟩
  split
  · exact .pure (appends_raw [0])
  · exact .pure (appends_raw [1])
  · exact .throw _

theorem takes_length :
    Takes Read.length fun count bytes =>
      count ≤ maxLength ∧ Appends (Write.length count) bytes := by
  apply (takes_number 4).bind
  intro count bytes stores
  by_cases large : maxLength < count
  · rw [if_pos large]
    have refused : Takes (throw (.lengthOverflow count) : Read Error PUnit) fun _ _ => False :=
      .throw _
    exact refused.bind fun _ _ impossible => impossible.elim
  · rw [if_neg large]
    have written : Appends (Write.length count) bytes := by
      rw [Write.length, if_neg large]
      exact stores.appends
    exact .pure ⟨Nat.le_of_not_lt large, by rwa [List.append_nil]⟩

theorem takes_bytes :
    Takes Read.bytes fun content bytes => Appends (Write.bytes content) bytes := by
  apply takes_length.bind
  rintro count bytes ⟨-, counted⟩
  apply (takes_raw count).mono
  rintro content _ ⟨rfl, rfl⟩
  exact counted.bind (appends_raw _)

theorem toUTF8_of_fromUTF8? {content : List UInt8} {text : String}
    (decoded : String.fromUTF8? ⟨content.toArray⟩ = some text) :
    text.toUTF8.data.toList = content := by
  rw [String.fromUTF8?] at decoded
  split at decoded
  · cases decoded
    rfl
  · cases decoded

theorem takes_string :
    Takes Read.string fun text bytes => Appends (Write.string text) bytes := by
  apply takes_bytes.bind
  intro content bytes appends
  split
  · rename_i text decoded
    apply Takes.pure
    rw [List.append_nil, Write.string, toUTF8_of_fromUTF8? decoded]
    exact appends
  · exact .throw _

end Primitives

/-- An operation that takes a fixed number of bytes whenever it gives an answer. -/
def Spans {failure α : Type} (read : Read failure α) (size : Nat) : Prop :=
  Takes read fun _ bytes => bytes.length = size

section Spans

variable {failure adapted α β : Type} {size more : Nat}

theorem Spans.pure (value : α) : Spans (Pure.pure value : Read failure α) 0 :=
  Takes.pure rfl

theorem Spans.bind {first : Read failure α} {next : α → Read failure β} (start : Spans first size)
    (finish : ∀ value, Spans (next value) more) : Spans (first >>= next) (size + more) := by
  apply Takes.bind start
  rintro value bytes rfl
  apply (finish value).mono
  rintro result rest rfl
  exact List.length_append

theorem Spans.map {read : Read failure α} (spans : Spans read size) (convert : α → β) :
    Spans (read >>= fun value => Pure.pure (convert value)) size :=
  spans.bind fun _ => .pure _

theorem Spans.adapt {read : Read failure α} (spans : Spans read size)
    (adapt : failure → adapted) : Spans (read.adaptExcept adapt) size :=
  Takes.adapt spans adapt

/-- What an operation reads has the size of everything that it takes. -/
theorem Spans.length_eq {read : Read failure α} (spans : Spans read size) {bytes : List UInt8}
    {value : α} (reads : Reads read bytes value) : bytes.length = size := by
  have taken := (spans.at (reads [] [])).2.2
  rwa [Reader.taken_between] at taken

theorem spans_raw (count : Nat) : Spans (Read.raw count) count :=
  (takes_raw count).mono fun _ _ taken => taken.2

theorem spans_number (width : Nat) : Spans (Read.number width) width :=
  (spans_raw width).map _

theorem spans_bool : Spans Read.bool 1 := by
  apply Takes.bind (spans_raw 1)
  intro content bytes counted
  split
  · exact .pure (by rw [List.append_nil, counted])
  · exact .pure (by rw [List.append_nil, counted])
  · exact .throw _

theorem spans_length : Spans Read.length 4 := by
  apply Takes.bind (spans_number 4)
  intro count bytes counted
  split
  · have refused : Takes (throw (.lengthOverflow count) : Read Error PUnit) fun _ _ => False :=
      .throw _
    exact refused.bind fun _ _ impossible => impossible.elim
  · exact .pure (by rw [List.append_nil, counted])

/-- Bytes and texts of any length take those of their length. -/
theorem takes_four_bytes : Takes Read.bytes fun _ bytes => 4 ≤ bytes.length := by
  apply Takes.bind spans_length
  intro count bytes counted
  apply (takes_raw count).mono
  intro _ content _
  rw [List.length_append, counted]
  exact Nat.le_add_right 4 _

theorem takes_four_string : Takes Read.string fun _ bytes => 4 ≤ bytes.length := by
  apply Takes.bind takes_four_bytes
  intro content bytes enough
  split
  · exact .pure (by rwa [List.append_nil])
  · exact .throw _

end Spans

end DriverIdl.Parcel
