import DriverIdl.Text.CharClass

/-!
# Quoted text

Two ways to show a text between double quotes.  Messages quote names the way structured data files
do, with short escapes for the usual controls.  Printed values quote texts so that every character on
screen is visible: what attaches to its neighbour or has no glyph is written by its code point.
-/

namespace DriverIdl.Text

/-- Digits of a number in lower case hexadecimal, filled with zeros up to `width`. -/
def hexadecimal (width number : Nat) : List Char :=
  let digits := Nat.toDigits 16 number
  List.replicate (width - digits.length) '0' ++ digits

/-- Bytes in hexadecimal, two digits each. -/
def hexBytes (bytes : Array UInt8) : String :=
  bytes.foldl (fun text byte =>
    (text.push (Nat.digitChar (byte.toNat / 16))).push (Nat.digitChar (byte.toNat % 16))) ""

/-- One character of a quoted name: quotes, backslashes and controls are escaped. -/
def quotedChar (character : Char) : List Char :=
  match character with
  | '"' => ['\\', '"']
  | '\\' => ['\\', '\\']
  | '\n' => ['\\', 'n']
  | '\r' => ['\\', 'r']
  | '\t' => ['\\', 't']
  | '\x08' => ['\\', 'b']
  | '\x0c' => ['\\', 'f']
  | _ =>
    if character.toNat < 32 then ['\\', 'u'] ++ hexadecimal 4 character.toNat
    else [character]

/-- A name between double quotes, as every message shows source text. -/
def quote (text : String) : String :=
  String.ofList ('"' :: text.toList.flatMap quotedChar ++ ['"'])

/-- One character of a printed text: what cannot be seen is written by its code point. -/
def visibleChar (character : Char) : List Char :=
  match character with
  | '\x00' => ['\\', '0']
  | '\t' => ['\\', 't']
  | '\r' => ['\\', 'r']
  | '\n' => ['\\', 'n']
  | '\\' => ['\\', '\\']
  | '"' => ['\\', '"']
  | _ =>
    if extendsGrapheme character || !isPrintable character then
      ['\\', 'u', '\x7b'] ++ Nat.toDigits 16 character.toNat ++ ['\x7d']
    else [character]

/-- A text between double quotes with every character visible. -/
def quoteVisible (text : String) : String :=
  String.ofList ('"' :: text.toList.flatMap visibleChar ++ ['"'])

end DriverIdl.Text
