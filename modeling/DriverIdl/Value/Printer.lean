import DriverIdl.Text.Quoted
import DriverIdl.Text.Shortest
import DriverIdl.Value.Basic

/-!
# Printing and comparing values

The text of a value shows numbers in decimal, floats by their shortest digits and texts in quotes.
Values are compared as the numbers they denote, so a NaN differs from itself and the two zeros agree.
-/

namespace DriverIdl

/-- Texts with a comma and a blank between them. -/
def commaSeparated (items : List String) : String :=
  String.intercalate ", " items

/-- The text of a run of bytes. -/
def bytesText (bytes : List UInt8) : String :=
  "[" ++ commaSeparated (bytes.map fun byte => toString byte.toNat) ++ "]"

/-- The text of a boolean. -/
def boolText (value : Bool) : String :=
  if value then "true" else "false"

/-- The text of a queue descriptor. -/
def QueueMeta.text (queue : QueueMeta) : String :=
  "QueueMeta \x7b fd: " ++ toString queue.fd.toInt ++
    ", element_size: " ++ toString queue.elementSize.toNat ++
    ", element_count: " ++ toString queue.elementCount.toNat ++
    ", synchronized: " ++ boolText queue.synchronized ++ " \x7d"

namespace Value

mutual

/-- The text of a value. -/
def text : Value → String
  | .bool value => boolText value
  | .int shape pattern => toString (shape.toInt pattern)
  | .f32 pattern => Shortest.Format.single.text pattern.toNat
  | .f64 pattern => Shortest.Format.double.text pattern.toNat
  | .string value => Text.quoteVisible value
  | .fd pattern => s!"fd({pattern.toInt})"
  | .enum number => s!"enum({number})"
  | .seq values => "[" ++ commaSeparated (elementTexts values) ++ "]"
  | .map entries => "\x7b" ++ commaSeparated (entryTexts entries) ++ "\x7d"
  | .struct fields => "\x7b" ++ commaSeparated (fieldTexts fields) ++ "\x7d"
  | .union block => "union" ++ bytesText block
  | .remote handle => "remote(0x" ++ String.ofList (Nat.toDigits 16 handle.toNat) ++ ")"
  | .sequenceable payload => "sequenceable" ++ bytesText payload
  | .queue descriptor => descriptor.text
  | .void => "void"

/-- The texts of the elements of a sequence. -/
def elementTexts : List Value → List String
  | [] => []
  | value :: rest => value.text :: elementTexts rest

/-- The texts of the entries of a map. -/
def entryTexts : List (Value × Value) → List String
  | [] => []
  | (key, value) :: rest => (key.text ++ ": " ++ value.text) :: entryTexts rest

/-- The texts of the fields of a struct. -/
def fieldTexts : List (String × Value) → List String
  | [] => []
  | (name, value) :: rest => (name ++ ": " ++ value.text) :: fieldTexts rest

end

mutual

/-- Whether two values are of one kind and denote the same data. -/
def equal : Value → Value → Bool
  | .bool left, .bool right => left == right
  | .int leftShape left, .int rightShape right =>
    leftShape == rightShape && leftShape.toInt left == rightShape.toInt right
  | .f32 left, .f32 right => Shortest.Format.single.equal left.toNat right.toNat
  | .f64 left, .f64 right => Shortest.Format.double.equal left.toNat right.toNat
  | .string left, .string right => left == right
  | .fd left, .fd right => left == right
  | .enum left, .enum right => left == right
  | .seq left, .seq right => elementsEqual left right
  | .map left, .map right => entriesEqual left right
  | .struct left, .struct right => fieldsEqual left right
  | .union left, .union right => left == right
  | .remote left, .remote right => left == right
  | .sequenceable left, .sequenceable right => left == right
  | .queue left, .queue right => left == right
  | .void, .void => true
  | _, _ => false

/-- Whether two sequences agree element by element. -/
def elementsEqual : List Value → List Value → Bool
  | [], [] => true
  | left :: lefts, right :: rights => equal left right && elementsEqual lefts rights
  | _, _ => false

/-- Whether two maps agree entry by entry, in order. -/
def entriesEqual : List (Value × Value) → List (Value × Value) → Bool
  | [], [] => true
  | (leftKey, left) :: lefts, (rightKey, right) :: rights =>
    equal leftKey rightKey && equal left right && entriesEqual lefts rights
  | _, _ => false

/-- Whether two structs agree field by field, in order. -/
def fieldsEqual : List (String × Value) → List (String × Value) → Bool
  | [], [] => true
  | (leftName, left) :: lefts, (rightName, right) :: rights =>
    leftName == rightName && equal left right && fieldsEqual lefts rights
  | _, _ => false

end

end Value

end DriverIdl
