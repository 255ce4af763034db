import DriverIdl.Parcel.LittleEndian

/-!
# Parcels

A parcel is an ordered run of bytes that holds fixed-width little-endian scalars, byte runs behind a
32-bit length, and raw blocks.  `Parcel.Write` appends to a parcel and `Parcel.Read` walks along one;
both keep the place reached when an operation fails, since callers may report it.
-/

namespace DriverIdl.Parcel

/-- The largest length a parcel carries. -/
def maxLength : Nat := 1024 * 200

/-- Why a parcel operation fails. -/
inductive Error where
  | underflow (wanted remaining : Nat)
  | invalidBool (byte : UInt8)
  | invalidUtf8
  | lengthOverflow (length : Nat)
  | capacityExceeded (needed capacity : Nat)
  deriving DecidableEq, Inhabited

/-- The sentence that tells a failure. -/
def Error.message : Error → String
  | .underflow wanted remaining =>
    s!"parcel underflow: wanted {wanted} byte(s), {remaining} left"
  | .invalidBool byte => s!"invalid boolean byte {byte.toNat}"
  | .invalidUtf8 => "string is not valid UTF-8"
  | .lengthOverflow length => s!"length {length} exceeds the parcel limit"
  | .capacityExceeded needed capacity =>
    s!"{needed} exceeds the caller capacity of {capacity}"

/-- An operation that appends to a parcel. -/
abbrev Write (failure : Type) (α : Type) := EStateM failure (Array UInt8) α

namespace Write

/-- Appends bytes as they are. -/
def raw {failure : Type} (bytes : List UInt8) : Write failure Unit :=
  modify fun data => data.appendList bytes

/-- Appends a number of `width` bytes. -/
def number {failure : Type} (width value : Nat) : Write failure Unit :=
  raw (LittleEndian.encode width value)

/-- Appends a boolean: one byte, 0 or 1. -/
def bool {failure : Type} (value : Bool) : Write failure Unit :=
  raw [if value then 1 else 0]

/-- Appends a length, which must not exceed the parcel limit. -/
def length (count : Nat) : Write Error Unit :=
  if maxLength < count then throw (.lengthOverflow count) else number 4 count

/-- Appends bytes behind their length. -/
def bytes (content : List UInt8) : Write Error Unit := do
  length content.length
  raw content

/-- Appends a text as UTF-8 behind its length in bytes. -/
def string (text : String) : Write Error Unit :=
  bytes text.toUTF8.data.toList

end Write

/-- A place in the bytes of a parcel. -/
structure Reader where
  data : Array UInt8
  index : Nat := 0
  index_le : index ≤ data.size := by omega

namespace Reader

/-- The start of a parcel. -/
def start (data : Array UInt8) : Reader := ⟨data, 0, Nat.zero_le _⟩

/-- Bytes that are left. -/
def remaining (reader : Reader) : Nat := reader.data.size - reader.index

/-- Whether all bytes have been read. -/
def isExhausted (reader : Reader) : Bool := reader.remaining == 0

/-- The place `count` bytes further on. -/
def advance (reader : Reader) (count : Nat) (fits : count ≤ reader.remaining) : Reader where
  data := reader.data
  index := reader.index + count
  index_le := by
    have bound := reader.index_le
    simp only [remaining] at fits
    omega

/-- The next `count` bytes. -/
def ahead (reader : Reader) (count : Nat) : List UInt8 :=
  (reader.data.extract reader.index (reader.index + count)).toList

end Reader

/-- An operation that walks along a parcel. -/
abbrev Read (failure : Type) (α : Type) := EStateM failure Reader α

namespace Read

/-- The next `count` bytes. -/
def raw (count : Nat) : Read Error (List UInt8) := fun reader =>
  if fits : count ≤ reader.remaining then
    .ok (reader.ahead count) (reader.advance count fits)
  else
    .error (.underflow count reader.remaining) reader

/-- A number of `width` bytes. -/
def number (width : Nat) : Read Error Nat := do
  return LittleEndian.decode (← raw width)

/-- A boolean; a byte other than 0 and 1 is consumed and refused. -/
def bool : Read Error Bool := do
  match ← raw 1 with
  | [0] => return false
  | [1] => return true
  | other => throw (.invalidBool (other.headD 0))

/-- A length; one above the parcel limit is consumed and refused. -/
def length : Read Error Nat := do
  let count ← number 4
  if maxLength < count then throw (.lengthOverflow count)
  return count

/-- Bytes behind their length. -/
def bytes : Read Error (List UInt8) := do
  raw (← length)

/-- A text behind its length in bytes; one that is not UTF-8 is consumed and refused. -/
def string : Read Error String := do
  let content ← bytes
  match String.fromUTF8? ⟨content.toArray⟩ with
  | some text => return text
  | none => throw .invalidUtf8

end Read

end DriverIdl.Parcel
