/-!
# Replacement

Texts with characters or whole patterns replaced.
-/

namespace DriverIdl.Text

/-- The text with every `pattern` character replaced. -/
def replaceChar (pattern replacement : Char) (text : String) : String :=
  String.ofList (text.toList.map fun character =>
    if character == pattern then replacement else character)

/-- Replaces a pattern in what follows the next `skip` characters, from left to right. -/
def replaceFrom (pattern replacement : List Char) : Nat → List Char → List Char
  | _, [] => []
  | skip + 1, _ :: rest => replaceFrom pattern replacement skip rest
  | 0, character :: rest =>
    if pattern.isPrefixOf (character :: rest) then
      replacement ++ replaceFrom pattern replacement (pattern.length - 1) rest
    else character :: replaceFrom pattern replacement 0 rest

/-- The text with every occurrence of a pattern, which is not empty, replaced. -/
def replaceAll (pattern replacement text : String) : String :=
  String.ofList (replaceFrom pattern.toList replacement.toList 0 text.toList)

end DriverIdl.Text
