import DriverIdl.Text.Casing

/-!
# File paths

A path is the text it was given as; joining keeps that text.  Its components are what a comparison
looks at: repeated separators and single dots inside a path do not count.
-/

namespace DriverIdl

/-- A file path as it is written. -/
structure Path where
  text : String
  deriving DecidableEq, Inhabited

namespace Path

/-- One step of a path. -/
inductive Component where
  | root
  | current
  | parent
  | normal (name : String)
  deriving DecidableEq, Inhabited

/-- Whether the path starts at the root. -/
def isAbsolute (path : Path) : Bool := path.text.toList.head? == some '/'

/-- The steps of a path; a dot counts only as the first step of a relative path. -/
def components (path : Path) : List Component :=
  let names := Text.pieces '/' path.text.toList
  let step : List Char → Option Component
    | [] => none
    | ['.'] => none
    | ['.', '.'] => some .parent
    | name => some (.normal (String.ofList name))
  let first : List Component :=
    if path.isAbsolute then [.root] else if names.head? == some ['.'] then [.current] else []
  first ++ names.filterMap step

/-- The last step of a path, if it is a name. -/
def fileName? (path : Path) : Option String :=
  match path.components.getLast? with
  | some (.normal name) => some name
  | _ => none

/-- A file name up to its last dot; a name whose only dot comes first has no extension. -/
def stemOf (name : String) : String :=
  let characters := name.toList.reverse
  match characters.dropWhile (· != '.') with
  | [] => name
  | [_] => name
  | _ :: stem => String.ofList stem.reverse

/-- The name of a file without its extension. -/
def stem? (path : Path) : Option String := path.fileName?.map stemOf

/-- The steps of the directory that holds the path; a path without one lies in no directory. -/
def parentComponents (path : Path) : List Component :=
  match path.components.getLast? with
  | none => []
  | some .root => []
  | some _ => path.components.dropLast

/-- One path behind another; an absolute second path replaces the first. -/
def join (path below : Path) : Path :=
  if below.isAbsolute then below
  else if path.text.toList.isEmpty || path.text.toList.getLast? == some '/' then
    ⟨path.text ++ below.text⟩
  else ⟨path.text ++ "/" ++ below.text⟩

/-- The path through a list of names. -/
def ofNames (names : List String) : Path :=
  names.foldl (fun path name => path.join ⟨name⟩) ⟨""⟩

end Path

end DriverIdl
