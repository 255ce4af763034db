import DriverIdl.Proofs.Parcel.Stream
import DriverIdl.Value.Basic

/-!
# Entries of a parcel

Whatever callers put into a parcel, entry by entry, delimits itself: what is read back with the kinds
of the entries is the entries.  Only an entry that announces a length can be refused, and a refused
one leaves no trace, so the entries around it are read as if it had never been tried.
-/

namespace DriverIdl.Parcel

/-- One entry of a parcel, as a caller writes it.  Numbers are their bit patterns. -/
inductive Entry where
  | bool (value : Bool)
  | int (shape : IntShape) (pattern : BitVec shape.bits)
  | f32 (pattern : BitVec 32)
  | f64 (pattern : BitVec 64)
  | raw (block : List UInt8)
  | bytes (content : List UInt8)
  | string (text : String)
  | length (count : Nat)
  | fd (pattern : BitVec 32)
  | remote (handle : BitVec 64)
  deriving DecidableEq, Inhabited

/-- What a reader has to know of an entry in advance: its kind, and the size of a raw block. -/
inductive Kind where
  | bool
  | int (shape : IntShape)
  | f32
  | f64
  | raw (count : Nat)
  | bytes
  | string
  | length
  | fd
  | remote
  deriving DecidableEq, Inhabited

namespace Entry

/-- The kind of an entry. -/
def kind : Entry → Kind
  | .bool _ => .bool
  | .int shape _ => .int shape
  | .f32 _ => .f32
  | .f64 _ => .f64
  | .raw block => .raw block.length
  | .bytes _ => .bytes
  | .string _ => .string
  | .length _ => .length
  | .fd _ => .fd
  | .remote _ => .remote

/-- Appends an entry. -/
def write : Entry → Write Error Unit
  | .bool value => Write.bool value
  | .int shape pattern => Write.number shape.bytes pattern.toNat
  | .f32 pattern | .fd pattern => Write.number 4 pattern.toNat
  | .f64 pattern | .remote pattern => Write.number 8 pattern.toNat
  | .raw block => Write.raw block
  | .bytes content => Write.bytes content
  | .string text => Write.string text
  | .length count => Write.length count

/-- The length that an entry announces. -/
def length? : Entry → Option Nat
  | .bytes content => some content.length
  | .string text => some text.utf8ByteSize
  | .length count => some count
  | _ => none

/-- A length that an entry announces is within the limit. -/
def Fits (entry : Entry) : Prop := ∀ count ∈ entry.length?, count ≤ maxLength

instance : DecidablePred Fits := fun entry =>
  inferInstanceAs (Decidable (∀ count ∈ entry.length?, count ≤ maxLength))

end Entry

/-- Reads an entry of a kind. -/
def Kind.read : Kind → Read Error Entry
  | .bool => return .bool (← Read.bool)
  | .int shape => return .int shape (BitVec.ofNat shape.bits (← Read.number shape.bytes))
  | .f32 => return .f32 (BitVec.ofNat 32 (← Read.number 4))
  | .f64 => return .f64 (BitVec.ofNat 64 (← Read.number 8))
  | .raw count => return .raw (← Read.raw count)
  | .bytes => return .bytes (← Read.bytes)
  | .string => return .string (← Read.string)
  | .length => return .length (← Read.length)
  | .fd => return .fd (BitVec.ofNat 32 (← Read.number 4))
  | .remote => return .remote (BitVec.ofNat 64 (← Read.number 8))

/-- Writes entries one after another and goes on behind one that is refused, in whatever state that
leaves the parcel.  The answer is the entries that were written, and the parcel. -/
def writeEntries : List Entry → Array UInt8 → List Entry × Array UInt8
  | [], data => ([], data)
  | entry :: rest, data =>
    match entry.write data with
    | .ok _ after =>
      let (written, finish) := writeEntries rest after
      (entry :: written, finish)
    | .error _ after => writeEntries rest after

/-- Reads entries of some kinds one after another, up to the first fault. -/
def readEntries : List Kind → Read Error (List Entry)
  | [] => return []
  | kind :: rest => do
    let entry ← kind.read
    return entry :: (← readEntries rest)

section Entries

theorem Entry.transfers {entry : Entry} (fits : entry.Fits) :
    Transfers entry.write entry.kind.read entry := by
  cases entry with
  | bool value => exact (transfers_bool value).map Entry.bool
  | int shape pattern => exact (transfers_toNat shape.bytes pattern).word (Entry.int shape)
  | f32 pattern => exact (transfers_toNat 4 pattern).word Entry.f32
  | f64 pattern => exact (transfers_toNat 8 pattern).word Entry.f64
  | raw block => exact (transfers_raw block).map Entry.raw
  | bytes content => exact (transfers_bytes (fits _ rfl)).map Entry.bytes
  | string text => exact (transfers_string (fits _ rfl)).map Entry.string
  | length count => exact (transfers_length (fits _ rfl)).map Entry.length
  | fd pattern => exact (transfers_toNat 4 pattern).word Entry.fd
  | remote handle => exact (transfers_toNat 8 handle).word Entry.remote

theorem length_run_of_lt {count : Nat} (large : maxLength < count) (held : Array UInt8) :
    Write.length count held = .error (.lengthOverflow count) held := by
  rw [Write.length, if_pos large]
  rfl

theorem bytes_run_of_lt {content : List UInt8} (large : maxLength < content.length)
    (held : Array UInt8) :
    Write.bytes content held = .error (.lengthOverflow content.length) held := by
  have opened : Write.bytes content held =
      EStateM.bind (Write.length content.length) (fun _ => Write.raw content) held := rfl
  rw [opened, EStateM.bind, length_run_of_lt large]

/-- An entry that announces too much is refused, and nothing of it is written. -/
theorem Entry.write_of_lt {entry : Entry} {count : Nat} (announced : entry.length? = some count)
    (large : maxLength < count) (held : Array UInt8) :
    entry.write held = .error (.lengthOverflow count) held := by
  cases entry with
  | bytes content =>
      cases announced
      exact bytes_run_of_lt large held
  | string text =>
      cases announced
      rw [← length_utf8] at large ⊢
      exact bytes_run_of_lt large held
  | length count =>
      cases announced
      exact length_run_of_lt large held
  | _ => cases announced

/-- An entry is written, or announces too much and leaves the parcel as it was. -/
theorem Entry.write_cases (entry : Entry) (held : Array UInt8) :
    (entry.Fits ∧ ∃ after, entry.write held = .ok () after) ∨
      ∃ count, entry.length? = some count ∧ maxLength < count ∧
        entry.write held = .error (.lengthOverflow count) held := by
  by_cases fits : entry.Fits
  · obtain ⟨bytes, appends, -⟩ := entry.transfers fits
    exact .inl ⟨fits, _, appends held.toList⟩
  · obtain ⟨count, announced, large⟩ : ∃ count ∈ entry.length?, ¬count ≤ maxLength := by
      simpa only [Fits, Classical.not_forall, exists_prop] using fits
    have large := Nat.lt_of_not_le large
    exact .inr ⟨count, announced, large, entry.write_of_lt announced large held⟩

/-- What is written into a parcel, refused entries left out, is taken off it again by the kinds of the
entries that were written. -/
theorem readEntries_writeEntries (entries : List Entry) (held : List UInt8) :
    ∃ bytes, writeEntries entries held.toArray =
        (entries.filter (·.Fits), (held ++ bytes).toArray) ∧
      Reads (readEntries ((entries.filter (·.Fits)).map Entry.kind)) bytes
        (entries.filter (·.Fits)) := by
  induction entries generalizing held with
  | nil => exact ⟨[], by rw [List.append_nil]; rfl, .pure []⟩
  | cons entry rest ih =>
      by_cases fits : entry.Fits
      · obtain ⟨here, appends, reads⟩ := entry.transfers fits
        obtain ⟨behind, writes, readsRest⟩ := ih (held ++ here)
        have kept : (entry :: rest).filter (·.Fits) = entry :: rest.filter (·.Fits) :=
          List.filter_cons_of_pos (decide_eq_true fits)
        refine ⟨here ++ behind, ?_, ?_⟩
        · rw [writeEntries, appends held, kept, ← List.append_assoc]
          simp only [writes]
        · rw [kept, List.map_cons, readEntries]
          have readsThese : Reads (do
              let others ← readEntries ((rest.filter (·.Fits)).map Entry.kind)
              return entry :: others) (behind ++ []) (entry :: rest.filter (·.Fits)) :=
            readsRest.bind (.pure _)
          rw [List.append_nil] at readsThese
          exact reads.bind readsThese
      · rcases entry.write_cases held.toArray with ⟨fitsToo, -⟩ | ⟨count, -, -, refused⟩
        · exact absurd fitsToo fits
        · obtain ⟨bytes, writes, reads⟩ := ih held
          have skipped : (entry :: rest).filter (·.Fits) = rest.filter (·.Fits) :=
            List.filter_cons_of_neg (by simpa using fits)
          rw [skipped, writeEntries, refused]
          exact ⟨bytes, writes, reads⟩

/-- An entry is refused exactly if it announces a length above the limit, and a refused entry leaves
the parcel as it was.  Reading a parcel with the kinds of the entries that were written into it
answers these entries, in order, and ends at the end of the parcel. -/
theorem parcel_holds_written_entries (entries : List Entry) :
    (∀ (entry : Entry) (held : Array UInt8),
      (entry.Fits ∧ ∃ after, entry.write held = .ok () after) ∨
        ∃ count, entry.length? = some count ∧ maxLength < count ∧
          entry.write held = .error (.lengthOverflow count) held) ∧
    ∃ written data finish, writeEntries entries #[] = (written, data) ∧
      written = entries.filter (·.Fits) ∧
      readEntries (written.map Entry.kind) (.start data) = .ok written finish ∧
      finish.isExhausted = true := by
  refine ⟨Entry.write_cases, ?_⟩
  obtain ⟨bytes, writes, reads⟩ := readEntries_writeEntries entries []
  have run := reads [] []
  rw [List.append_nil, ← Reader.start_eq_between] at run
  exact ⟨_, _, _, writes, rfl, run, by simp [Reader.isExhausted]⟩

/-- A refused length stands between two entries that are read. -/
example : (writeEntries [.bool true, .length (maxLength + 1), .int .i16 0xFFFE] #[]).2 =
    #[1, 0xFE, 0xFF] := by
  decide

end Entries

end DriverIdl.Parcel
