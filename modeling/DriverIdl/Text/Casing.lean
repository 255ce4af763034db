import DriverIdl.Text.CaseMap

/-!
# Naming conventions

Generated code spells one name in several conventions: `PascalCase` for classes, `snake_case` for
files and functions, `UPPER_SNAKE` for constants and `lowerCamel` for methods.
-/

namespace DriverIdl.Text

/-- The pieces between the separators of a text; a text without separators is one piece. -/
def pieces (separator : Char) (text : List Char) : List (List Char) :=
  text.splitOn separator

/-- First character in upper case; the rest in lower case if asked for. -/
def capitalize (lowerRest : Bool) : List Char → List Char
  | [] => []
  | first :: rest => upperChars first ++ if lowerRest then lowerFrom [] rest else rest

/-- `PascalCase`: every word between underscores is capitalized; a text of one word keeps its inner
capitals unless it holds no lower case letter at all. -/
def pascalCase (text : String) : String :=
  let characters := text.toList
  if characters.contains '_' then
    String.ofList ((pieces '_' characters).flatMap (capitalize true))
  else
    String.ofList (capitalize (text == uppercase text) characters)

/-- Continues `snake_case` after the character `before`.  An underscore goes in front of a capital
that starts a word: one after a small letter, or the last capital of a run. -/
def snakeFrom (before : Option Char) : List Char → List Char
  | [] => []
  | character :: rest =>
    if isUppercase character then
      let startsWord := match before with
        | none => false
        | some previous =>
          previous != '_' && (!isUppercase previous || rest.head?.any isLowercase)
      (if startsWord then ['_'] else []) ++ lowerChars character ++ snakeFrom (some character) rest
    else character :: snakeFrom (some character) rest

/-- `snake_case`; a run of capitals stays one word. -/
def snakeCase (text : String) : String :=
  String.ofList (snakeFrom none text.toList)

/-- `UPPER_SNAKE`. -/
def upperSnake (text : String) : String :=
  uppercase (snakeCase text)

/-- `lowerCamel`: the first character in lower case, words between underscores capitalized. -/
def lowerCamel (text : String) : String :=
  let camel := if text.toList.contains '_' then pascalCase text else text
  match camel.toList with
  | [] => ""
  | first :: rest => String.ofList (lowerChars first ++ rest)

/-- An interface name without the `I` that conventionally starts it. -/
def baseName (interface : String) : String :=
  match interface.toList with
  | 'I' :: second :: rest =>
    if isUppercase second then String.ofList (second :: rest) else interface
  | _ => interface

end DriverIdl.Text
