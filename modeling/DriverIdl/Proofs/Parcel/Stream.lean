import DriverIdl.Parcel.Basic
import Mathlib.Tactic.Basic

/-!
# Writing and reading along a parcel

A write operation appends the same bytes to whatever the parcel holds, and a read operation takes
exactly those bytes wherever they stand.  `Transfers` joins the two: what one operation writes,
another reads back.  It composes along sequences of operations, so that the wire format of a value
follows from the formats of its parts.
-/

namespace DriverIdl.Parcel

section Operations

variable {failure adapted σ α β : Type}

theorem bind_eq_ok {first : EStateM failure σ α} {next : α → EStateM failure σ β} {start finish : σ}
    {result : β} :
    (first >>= next) start = .ok result finish ↔
      ∃ value middle, first start = .ok value middle ∧ next value middle = .ok result finish := by
  change EStateM.bind first next start = _ ↔ _
  unfold EStateM.bind
  cases first start with
  | ok value middle =>
      constructor
      · intro later
        exact ⟨value, middle, rfl, later⟩
      · rintro ⟨_, _, ⟨⟩, later⟩
        exact later
  | error reason middle => simp

theorem bind_eq_of_ok {first : EStateM failure σ α} {next : α → EStateM failure σ β}
    {start middle : σ} {value : α} (done : first start = .ok value middle) :
    (first >>= next) start = next value middle := by
  change EStateM.bind first next start = _
  unfold EStateM.bind
  rw [done]

theorem run_bind_congr {first other : EStateM failure σ α}
    {next otherNext : α → EStateM failure σ β} {start : σ} (sameFirst : other start = first start)
    (sameNext : ∀ value middle, first start = .ok value middle →
      otherNext value middle = next value middle) :
    (other >>= otherNext) start = (first >>= next) start := by
  change EStateM.bind other otherNext start = EStateM.bind first next start
  unfold EStateM.bind
  rw [sameFirst]
  cases run : first start with
  | ok value middle => exact sameNext value middle run
  | error reason middle => rfl

theorem adaptExcept_eq_ok {adapt : failure → adapted} {operation : EStateM failure σ α}
    {start finish : σ} {result : α} :
    operation.adaptExcept adapt start = .ok result finish ↔
      operation start = .ok result finish := by
  unfold EStateM.adaptExcept
  cases operation start <;> simp

end Operations

/-- The place behind some bytes of a parcel that goes on with others. -/
def Reader.between (before after : List UInt8) : Reader where
  data := (before ++ after).toArray
  index := before.length
  index_le := by simp

@[simp]
theorem Reader.remaining_between (before after : List UInt8) :
    (Reader.between before after).remaining = after.length := by
  simp [Reader.between, Reader.remaining]

theorem Reader.start_eq_between (bytes : List UInt8) :
    Reader.start bytes.toArray = Reader.between [] bytes :=
  rfl

theorem Reader.ahead_between (before bytes after : List UInt8) :
    (Reader.between before (bytes ++ after)).ahead bytes.length = bytes := by
  simp [Reader.between, Reader.ahead]

theorem Reader.advance_between (before bytes after : List UInt8)
    (fits : bytes.length ≤ (Reader.between before (bytes ++ after)).remaining) :
    (Reader.between before (bytes ++ after)).advance bytes.length fits =
      Reader.between (before ++ bytes) after := by
  simp [Reader.between, Reader.advance]

/-- An operation that appends the same bytes to whatever the parcel holds. -/
def Appends {failure : Type} (write : Write failure Unit) (bytes : List UInt8) : Prop :=
  ∀ held : List UInt8, write held.toArray = .ok () (held ++ bytes).toArray

/-- An operation that takes exactly some bytes, wherever they stand, and answers a value. -/
def Reads {failure α : Type} (read : Read failure α) (bytes : List UInt8) (value : α) : Prop :=
  ∀ before after, read (Reader.between before (bytes ++ after)) =
    .ok value (Reader.between (before ++ bytes) after)

/-- What one operation writes another reads back as the given value. -/
def Transfers {failure other α : Type} (write : Write failure Unit) (read : Read other α)
    (value : α) : Prop :=
  ∃ bytes, Appends write bytes ∧ Reads read bytes value

section Composition

variable {failure other adapted α β : Type}

theorem Appends.pure : Appends (pure () : Write failure Unit) [] := by
  intro held
  rw [List.append_nil]
  rfl

theorem Appends.bind {first : Write failure Unit} {next : Unit → Write failure Unit}
    {bytes rest : List UInt8} (start : Appends first bytes) (finish : Appends (next ()) rest) :
    Appends (first >>= next) (bytes ++ rest) := by
  intro held
  rw [bind_eq_of_ok (start held), finish, List.append_assoc]

theorem Appends.adapt {write : Write failure Unit} {bytes : List UInt8}
    (appends : Appends write bytes) (adapt : failure → adapted) :
    Appends (write.adaptExcept adapt) bytes :=
  fun held => adaptExcept_eq_ok.mpr (appends held)

theorem Reads.pure (value : α) : Reads (pure value : Read failure α) [] value := by
  intro before after
  rw [List.append_nil]
  rfl

theorem Reads.bind {first : Read failure α} {next : α → Read failure β} {bytes rest : List UInt8}
    {value : α} {result : β} (start : Reads first bytes value)
    (finish : Reads (next value) rest result) :
    Reads (first >>= next) (bytes ++ rest) result := by
  intro before after
  rw [List.append_assoc, bind_eq_of_ok (start before (rest ++ after)), finish, List.append_assoc]

theorem Reads.adapt {read : Read failure α} {bytes : List UInt8} {value : α}
    (reads : Reads read bytes value) (adapt : failure → adapted) :
    Reads (read.adaptExcept adapt) bytes value :=
  fun before after => adaptExcept_eq_ok.mpr (reads before after)

theorem Transfers.pure (value : α) :
    Transfers (pure () : Write failure Unit) (pure value : Read other α) value :=
  ⟨[], .pure, .pure value⟩

theorem Transfers.bind {first : Write failure Unit} {next : Unit → Write failure Unit}
    {read : Read other α} {readNext : α → Read other β} {value : α} {result : β}
    (start : Transfers first read value) (finish : Transfers (next ()) (readNext value) result) :
    Transfers (first >>= next) (read >>= readNext) result := by
  obtain ⟨bytes, appends, reads⟩ := start
  obtain ⟨rest, appendsRest, readsRest⟩ := finish
  exact ⟨bytes ++ rest, appends.bind appendsRest, reads.bind readsRest⟩

/-- Whatever is computed from a value that was read takes no bytes. -/
theorem Transfers.andThen {write : Write failure Unit} {read : Read other α}
    {next : α → Read other β} {value : α} {result : β} (start : Transfers write read value)
    (finish : Reads (next value) [] result) : Transfers write (read >>= next) result := by
  obtain ⟨bytes, appends, reads⟩ := start
  have whole := reads.bind finish
  rw [List.append_nil] at whole
  exact ⟨bytes, appends, whole⟩

theorem Transfers.map {write : Write failure Unit} {read : Read other α} {value : α}
    (start : Transfers write read value) (convert : α → β) :
    Transfers write (read >>= fun value => Pure.pure (convert value)) (convert value) :=
  start.andThen (.pure _)

theorem Transfers.adaptWrite {write : Write failure Unit} {read : Read other α} {value : α}
    (transfers : Transfers write read value) (adapt : failure → adapted) :
    Transfers (write.adaptExcept adapt) read value := by
  obtain ⟨bytes, appends, reads⟩ := transfers
  exact ⟨bytes, appends.adapt adapt, reads⟩

theorem Transfers.adaptRead {write : Write failure Unit} {read : Read other α} {value : α}
    (transfers : Transfers write read value) (adapt : other → adapted) :
    Transfers write (read.adaptExcept adapt) value := by
  obtain ⟨bytes, appends, reads⟩ := transfers
  exact ⟨bytes, appends, reads.adapt adapt⟩

end Composition

section Primitives

variable {failure : Type}

theorem appends_raw (content : List UInt8) :
    Appends (Write.raw content : Write failure Unit) content := by
  intro held
  change EStateM.Result.ok () (held.toArray.appendList content) = _
  simp

theorem transfers_raw (content : List UInt8) :
    Transfers (Write.raw content : Write failure Unit) (Read.raw content.length) content := by
  refine ⟨content, appends_raw content, ?_⟩
  intro before after
  have fits : content.length ≤ (Reader.between before (content ++ after)).remaining := by simp
  rw [Read.raw, dif_pos fits, Reader.ahead_between, Reader.advance_between]

theorem transfers_number {width value : Nat} (small : value < Nat.pow 256 width) :
    Transfers (Write.number width value : Write failure Unit) (Read.number width) value := by
  have stored : Transfers (Write.number width value : Write failure Unit)
      (Read.raw (LittleEndian.encode width value).length) (LittleEndian.encode width value) :=
    transfers_raw _
  rw [LittleEndian.length_encode] at stored
  have decoded := stored.map LittleEndian.decode
  rw [LittleEndian.decode_encode, Nat.mod_eq_of_lt small] at decoded
  exact decoded

theorem transfers_toNat (width : Nat) (pattern : BitVec (8 * width)) :
    Transfers (Write.number width pattern.toNat : Write failure Unit) (Read.number width)
      pattern.toNat := by
  apply transfers_number
  calc
    pattern.toNat < 2 ^ (8 * width) := pattern.isLt
    _ = Nat.pow 256 width := Nat.pow_mul 2 8 width

/-- A bit pattern is rebuilt from the number that was stored for it. -/
theorem Transfers.word {other α : Type} {bits : Nat} {pattern : BitVec bits}
    {write : Write failure Unit} {read : Read other Nat}
    (stored : Transfers write read pattern.toNat) (convert : BitVec bits → α) :
    Transfers write (read >>= fun number => Pure.pure (convert (BitVec.ofNat bits number)))
      (convert pattern) := by
  have rebuilt := stored.map fun number => convert (BitVec.ofNat bits number)
  rw [BitVec.ofNat_toNat, BitVec.setWidth_eq] at rebuilt
  exact rebuilt

theorem transfers_bool (value : Bool) :
    Transfers (Write.bool value : Write failure Unit) Read.bool value := by
  cases value with
  | false => exact (transfers_raw [0]).andThen (.pure false)
  | true => exact (transfers_raw [1]).andThen (.pure true)

theorem transfers_length {count : Nat} (fits : count ≤ maxLength) :
    Transfers (Write.length count) Read.length count := by
  have small : count < Nat.pow 256 4 := Nat.lt_of_le_of_lt fits (by decide)
  rw [Write.length, if_neg (Nat.not_lt.mpr fits)]
  apply (transfers_number small).andThen
  rw [if_neg (Nat.not_lt.mpr fits)]
  exact .pure count

theorem transfers_bytes {content : List UInt8} (fits : content.length ≤ maxLength) :
    Transfers (Write.bytes content) Read.bytes content :=
  (transfers_length fits).bind (transfers_raw content)

theorem length_utf8 (text : String) : text.toUTF8.data.toList.length = text.utf8ByteSize := by
  rw [Array.length_toList, String.toUTF8_eq_toByteArray]
  rfl

theorem transfers_string {text : String} (fits : text.utf8ByteSize ≤ maxLength) :
    Transfers (Write.string text) Read.string text := by
  rw [← length_utf8] at fits
  apply (transfers_bytes fits).andThen
  have decoded : String.fromUTF8? ⟨text.toUTF8.data.toList.toArray⟩ = some text := by
    rw [Array.toArray_toList]
    exact dif_pos text.isValidUTF8
  rw [decoded]
  exact .pure text

end Primitives

/-- An operation that some parcel does not refuse. -/
def Accepts {failure : Type} (write : Write failure Unit) : Prop :=
  ∃ held after, write held = .ok () after

section Acceptance

variable {failure adapted : Type}

theorem Accepts.of_bind {first : Write failure Unit} {next : Unit → Write failure Unit}
    (accepts : Accepts (first >>= next)) : Accepts first ∧ Accepts (next ()) := by
  obtain ⟨held, after, run⟩ := accepts
  obtain ⟨_, middle, runFirst, runNext⟩ := bind_eq_ok.mp run
  exact ⟨⟨held, middle, runFirst⟩, ⟨middle, after, runNext⟩⟩

theorem not_accepts_throw (reason : failure) : ¬Accepts (throw reason : Write failure Unit) := by
  rintro ⟨held, after, ⟨⟩⟩

theorem Accepts.of_adapt {write : Write failure Unit} {adapt : failure → adapted}
    (accepts : Accepts (write.adaptExcept adapt)) : Accepts write := by
  obtain ⟨held, after, run⟩ := accepts
  exact ⟨held, after, adaptExcept_eq_ok.mp run⟩

theorem Accepts.of_forM {α : Type} {write : α → Write failure Unit} {items : List α}
    (accepts : Accepts (items.forM write)) : ∀ item ∈ items, Accepts (write item) := by
  induction items with
  | nil => simp
  | cons first rest ih =>
      obtain ⟨here, later⟩ := accepts.of_bind
      intro item listed
      rcases List.mem_cons.mp listed with rfl | listed
      · exact here
      · exact ih later item listed

theorem le_maxLength_of_accepts {count : Nat} (accepts : Accepts (Write.length count)) :
    count ≤ maxLength := by
  apply Nat.le_of_not_lt
  intro large
  rw [Write.length, if_pos large] at accepts
  exact not_accepts_throw _ accepts

end Acceptance

/-- An operation that stays in its parcel and never moves back. -/
def Forward {failure α : Type} (read : Read failure α) : Prop :=
  ∀ reader value after, read reader = .ok value after →
    after.data = reader.data ∧ reader.index ≤ after.index

section Forward

variable {failure adapted α β : Type}

theorem Forward.remaining_le {read : Read failure α} (forward : Forward read)
    {reader after : Reader} {value : α} (run : read reader = .ok value after) :
    after.remaining ≤ reader.remaining := by
  obtain ⟨sameData, moved⟩ := forward reader value after run
  simp only [Reader.remaining, sameData]
  omega

theorem Forward.pure (value : α) : Forward (pure value : Read failure α) := by
  rintro reader _ _ ⟨⟩
  exact ⟨rfl, Nat.le_refl _⟩

theorem Forward.throw (reason : failure) : Forward (throw reason : Read failure α) := by
  rintro reader value after ⟨⟩

theorem Forward.bind {first : Read failure α} {next : α → Read failure β} (start : Forward first)
    (finish : ∀ value, Forward (next value)) : Forward (first >>= next) := by
  intro reader result after run
  obtain ⟨value, middle, runFirst, runNext⟩ := bind_eq_ok.mp run
  obtain ⟨sameFirst, movedFirst⟩ := start _ _ _ runFirst
  obtain ⟨sameNext, movedNext⟩ := finish value _ _ _ runNext
  exact ⟨sameNext.trans sameFirst, Nat.le_trans movedFirst movedNext⟩

theorem Forward.adapt {read : Read failure α} (forward : Forward read)
    (adapt : failure → adapted) : Forward (read.adaptExcept adapt) :=
  fun reader value after run => forward reader value after (adaptExcept_eq_ok.mp run)

theorem raw_eq_ok {count : Nat} {reader after : Reader} {content : List UInt8}
    (run : Read.raw count reader = .ok content after) :
    after.data = reader.data ∧ after.index = reader.index + count ∧ count ≤ reader.remaining := by
  rw [Read.raw] at run
  split at run
  · rename_i fits
    cases run
    exact ⟨rfl, rfl, fits⟩
  · cases run

theorem forward_raw (count : Nat) : Forward (Read.raw count) := by
  intro reader content after run
  obtain ⟨sameData, moved, -⟩ := raw_eq_ok run
  exact ⟨sameData, by omega⟩

theorem forward_number (width : Nat) : Forward (Read.number width) :=
  (forward_raw width).bind fun _ => .pure _

theorem forward_bool : Forward Read.bool := by
  apply (forward_raw 1).bind
  intro content
  split
  · exact .pure _
  · exact .pure _
  · exact .throw _

theorem forward_length : Forward Read.length := by
  apply (forward_number 4).bind
  intro count
  split
  · exact (Forward.throw _).bind fun _ => .pure _
  · exact .pure _

theorem forward_bytes : Forward Read.bytes :=
  forward_length.bind forward_raw

theorem forward_string : Forward Read.string := by
  apply forward_bytes.bind
  intro content
  split
  · exact .pure _
  · exact .throw _

/-- A length takes bytes. -/
theorem remaining_lt_of_length {reader after : Reader} {count : Nat}
    (run : Read.length reader = .ok count after) : after.remaining < reader.remaining := by
  obtain ⟨number, middle, runNumber, runCheck⟩ := bind_eq_ok.mp run
  obtain ⟨content, behind, runRaw, runDecode⟩ := bind_eq_ok.mp runNumber
  obtain ⟨sameData, moved, fits⟩ := raw_eq_ok runRaw
  obtain rfl : behind = middle := by
    cases runDecode
    rfl
  have shorter : behind.remaining + 4 = reader.remaining := by
    simp only [Reader.remaining, sameData, moved] at fits ⊢
    omega
  have checked : after = behind := by
    split at runCheck
    · cases runCheck
    · cases runCheck
      rfl
  rw [checked]
  omega

end Forward

end DriverIdl.Parcel
