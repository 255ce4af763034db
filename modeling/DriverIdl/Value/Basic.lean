/-!
# Values

A value is anything that a described type can carry across the wire.  Integers are bit patterns of
the width of their shape, floats are their IEEE bit patterns, and a struct is a list of named fields.
-/

namespace DriverIdl

/-- The shapes of integers that parcels carry. -/
inductive IntShape where
  | i8 | u8 | i16 | u16 | i32 | u32 | i64 | u64
  deriving DecidableEq, Inhabited

namespace IntShape

/-- Bytes that an integer takes. -/
def bytes : IntShape → Nat
  | .i8 | .u8 => 1
  | .i16 | .u16 => 2
  | .i32 | .u32 => 4
  | .i64 | .u64 => 8

/-- Bits that an integer takes. -/
def bits (shape : IntShape) : Nat := 8 * shape.bytes

/-- Whether negative numbers belong to the shape. -/
def isSigned : IntShape → Bool
  | .i8 | .i16 | .i32 | .i64 => true
  | .u8 | .u16 | .u32 | .u64 => false

/-- The name of the shape. -/
def name : IntShape → String
  | .i8 => "i8" | .u8 => "u8" | .i16 => "i16" | .u16 => "u16"
  | .i32 => "i32" | .u32 => "u32" | .i64 => "i64" | .u64 => "u64"

/-- The least number of the shape. -/
def least (shape : IntShape) : Int :=
  if shape.isSigned then -(Nat.pow 2 (shape.bits - 1)) else 0

/-- The greatest number of the shape. -/
def greatest (shape : IntShape) : Int :=
  if shape.isSigned then Nat.pow 2 (shape.bits - 1) - 1 else Nat.pow 2 shape.bits - 1

/-- Whether a number belongs to the shape. -/
def holds (shape : IntShape) (number : Int) : Bool :=
  shape.least ≤ number && number ≤ shape.greatest

/-- The number that a bit pattern of the shape denotes. -/
def toInt (shape : IntShape) (pattern : BitVec shape.bits) : Int :=
  if shape.isSigned then pattern.toInt else pattern.toNat

end IntShape

/-- The descriptor of a shared memory queue; the contents of the queue never cross the wire. -/
structure QueueMeta where
  fd : BitVec 32
  elementSize : BitVec 32
  elementCount : BitVec 32
  synchronized : Bool
  deriving DecidableEq, Inhabited

/-- Dynamic data of any described type. -/
inductive Value where
  | bool (value : Bool)
  | int (shape : IntShape) (pattern : BitVec shape.bits)
  | f32 (pattern : BitVec 32)
  | f64 (pattern : BitVec 64)
  | string (text : String)
  | fd (pattern : BitVec 32)
  | enum (number : Int)
  | seq (elements : List Value)
  | map (entries : List (Value × Value))
  | struct (fields : List (String × Value))
  | union (block : List UInt8)
  | remote (handle : BitVec 64)
  | sequenceable (payload : List UInt8)
  | queue (descriptor : QueueMeta)
  | void
  deriving Inhabited

namespace Value

/-- The name of the value's kind. -/
def kindName : Value → String
  | .bool _ => "bool"
  | .int shape _ => shape.name
  | .f32 _ => "f32"
  | .f64 _ => "f64"
  | .string _ => "string"
  | .fd _ => "fd"
  | .enum _ => "enum"
  | .seq _ => "seq"
  | .map _ => "map"
  | .struct _ => "struct"
  | .union _ => "union"
  | .remote _ => "remote"
  | .sequenceable _ => "sequenceable"
  | .queue _ => "queue"
  | .void => "void"

/-- The truth of a boolean, and false for every other kind. -/
def asBool : Value → Bool
  | .bool value => value
  | _ => false

/-- The number that an integer, boolean, enum or descriptor denotes, if it fits 64 signed bits. -/
def asInt64? : Value → Option Int
  | .bool value => some (if value then 1 else 0)
  | .int shape pattern => fitting (shape.toInt pattern)
  | .fd pattern => some pattern.toInt
  | .enum number => fitting number
  | _ => none
where
  fitting (number : Int) : Option Int :=
    if IntShape.i64.holds number then some number else none

/-- The text of a string, and the empty text for every other kind. -/
def asText : Value → String
  | .string text => text
  | _ => ""

/-- The elements of a sequence, and none for every other kind. -/
def elements : Value → List Value
  | .seq values => values
  | _ => []

/-- The number of elements, entries, fields or bytes; zero for kinds that have none. -/
def size : Value → Nat
  | .seq values => values.length
  | .map entries => entries.length
  | .struct fields => fields.length
  | .union block => block.length
  | .sequenceable payload => payload.length
  | _ => 0

/-- Whether the size is zero. -/
def isEmpty (value : Value) : Bool := value.size == 0

/-- A sequence with one more element; other kinds stay as they are. -/
def push (value element : Value) : Value :=
  match value with
  | .seq values => .seq (values ++ [element])
  | other => other

/-- The element at an index of a sequence. -/
def element? (value : Value) (index : Nat) : Option Value :=
  value.elements[index]?

/-- The first of the fields with a name. -/
def lookup (name : String) : List (String × Value) → Option Value
  | [] => none
  | (field, value) :: rest => if field == name then some value else lookup name rest

/-- The first field of a struct with a name. -/
def field? (value : Value) (name : String) : Option Value :=
  match value with
  | .struct fields => lookup name fields
  | _ => none

/-- Fields with the first one of a name replaced, or with a new one at the end. -/
def assign (name : String) (value : Value) : List (String × Value) → List (String × Value)
  | [] => [(name, value)]
  | (field, old) :: rest =>
    if field == name then (field, value) :: rest else (field, old) :: assign name value rest

/-- A struct with a field set; other kinds stay as they are. -/
def setField (target : Value) (name : String) (value : Value) : Value :=
  match target with
  | .struct fields => .struct (assign name value fields)
  | other => other

end Value

end DriverIdl
