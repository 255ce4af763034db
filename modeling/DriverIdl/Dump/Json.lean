import DriverIdl.Text.Quoted

/-!
# Structured data as text

Values of the interchange format that units are printed in, one item to a line.
-/

namespace DriverIdl

/-- A structured value; the fields of an object keep their order. -/
inductive Json where
  | null
  | bool (value : Bool)
  | number (value : Int)
  | string (text : String)
  | array (items : List Json)
  | object (fields : List (String × Json))
  deriving Inhabited

namespace Json

/-- Items between an opening and a closing mark, each on a line of its own one level deeper. -/
def enclosed (opening closing : String) (depth : Nat) (items : List String) : String :=
  match items with
  | [] => opening ++ closing
  | _ =>
    let margin (level : Nat) : String := "\n" ++ String.join (List.replicate level "  ")
    opening ++ margin (depth + 1) ++ String.intercalate ("," ++ margin (depth + 1)) items ++
      margin depth ++ closing

mutual

/-- The text of a value that stands `depth` levels deep. -/
def prettyAt (depth : Nat) : Json → String
  | .null => "null"
  | .bool value => if value then "true" else "false"
  | .number value => toString value
  | .string text => Text.quote text
  | .array items => enclosed "[" "]" depth (itemTexts (depth + 1) items)
  | .object fields => enclosed "\x7b" "\x7d" depth (fieldTexts (depth + 1) fields)

/-- The texts of the items of an array. -/
def itemTexts (depth : Nat) : List Json → List String
  | [] => []
  | item :: rest => prettyAt depth item :: itemTexts depth rest

/-- The texts of the fields of an object. -/
def fieldTexts (depth : Nat) : List (String × Json) → List String
  | [] => []
  | (name, value) :: rest =>
    (Text.quote name ++ ": " ++ prettyAt depth value) :: fieldTexts depth rest

end

/-- The text of a value. -/
def pretty (value : Json) : String := prettyAt 0 value

end Json

end DriverIdl
