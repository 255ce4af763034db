import DriverIdl.Path
import DriverIdl.Text.Quoted

/-!
# Packages

Units live in dotted packages whose last segment carries the version of the interface.
-/

namespace DriverIdl

/-- The version of an interface. -/
structure Version where
  major : Nat := 0
  minor : Nat := 0
  deriving DecidableEq, Inhabited

/-- The text of a version. -/
def Version.text (version : Version) : String := s!"{version.major}.{version.minor}"

namespace Package

/-- The non-empty segments between the dots of a name. -/
def segments (name : String) : List String :=
  ((Text.pieces '.' name.toList).filter fun segment => !segment.isEmpty).map String.ofList

/-- Why a package name is refused. -/
inductive Fault where
  | malformed (package : String)
  | unversioned (package : String)
  | versionRange (package : String)
  deriving DecidableEq, Inhabited

/-- The sentence that tells a fault. -/
def Fault.message : Fault → String
  | .malformed package => "invalid package name " ++ Text.quote package
  | .unversioned package =>
    "package " ++ Text.quote package ++ " must end with a version segment like \"v1_0\""
  | .versionRange package => "version number in " ++ Text.quote package ++ " is out of range"

/-- Whether characters spell an identifier. -/
def isIdentifier : List Char → Bool
  | [] => false
  | first :: rest =>
    (first.isAlpha || first == '_') && rest.all fun character =>
      character.isAlphanum || character == '_'

/-- The number that decimal digits denote. -/
def decimal (digits : List Char) : Nat :=
  digits.foldl (fun number digit => number * 10 + (digit.toNat - '0'.toNat)) 0

/-- The two digit runs of a version segment such as `v1_0`. -/
def versionDigits? : List Char → Option (List Char × List Char)
  | [] => none
  | first :: rest =>
    if first == 'v' || first == 'V' then
      let major := rest.takeWhile Char.isDigit
      match rest.dropWhile Char.isDigit with
      | '_' :: minor =>
        if !major.isEmpty && !minor.isEmpty && minor.all Char.isDigit then some (major, minor)
        else none
      | _ => none
    else none

/-- The version of a package: two or more identifiers, the last of them a version segment whose
numbers fit 32 bits. -/
def version (package : String) : Except Fault Version :=
  let parts := Text.pieces '.' package.toList
  if parts.length < 2 || !parts.all isIdentifier then .error (.malformed package)
  else match versionDigits? (parts.getLastD []) with
    | none => .error (.unversioned package)
    | some (major, minor) =>
      if decimal major < UInt32.size && decimal minor < UInt32.size then
        .ok ⟨decimal major, decimal minor⟩
      else .error (.versionRange package)

/-- Splits a full name at its last dot into package and short name, neither of them empty. -/
def splitFullName? (fullName : String) : Option (String × String) :=
  let backwards := fullName.toList.reverse
  match backwards.dropWhile (· != '.') with
  | [] => none
  | _ :: package =>
    let name := backwards.takeWhile (· != '.')
    if package.isEmpty || name.isEmpty then none
    else some (String.ofList package.reverse, String.ofList name.reverse)

/-- The directory path of a package. -/
def path (package : String) : Path := Path.ofNames (segments package)

/-- Whether a package is another one or lies below it. -/
def isWithin (package ancestor : String) : Bool :=
  package == ancestor || (ancestor.toList ++ ['.']).isPrefixOf package.toList

/-- The name of a unit in its package. -/
def fullName (package name : String) : String := package ++ "." ++ name

end Package

end DriverIdl
