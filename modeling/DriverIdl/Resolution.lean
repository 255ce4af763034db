import DriverIdl.Failure
import DriverIdl.FileTree.Basic
import DriverIdl.ImportGraph

/-!
# Finding the units of a run

Starting from the given files, every imported unit is looked up below the package roots, until there
are no unknown imports left.  The units are then put into an order in which imports come first.
-/

namespace DriverIdl

/-- A unit that has been found, with the place of its file. -/
structure FoundUnit where
  header : Header
  location : Location
  deriving DecidableEq, Inhabited

namespace FoundUnit

/-- The name by which other units import the unit. -/
def fullName (unit : FoundUnit) : String := unit.header.fullName

end FoundUnit

/-- A file to be looked at; an imported one must declare the unit it was imported as. -/
structure SoughtFile where
  path : Path
  expected : Option String
  deriving DecidableEq, Inhabited

namespace Resolution

/-- The unit in a file. -/
def scan (tree : FileTree) (path : Path) : Except Failure FoundUnit :=
  match tree.readText path, tree.locate path with
  | .ok source, .ok location =>
    match Header.ofSource path source with
    | .ok header => .ok ⟨header, location⟩
    | .error fault => .error (.resolve (.header fault))
  | .error fault, _ | _, .error fault => .error (.read path fault)

/-- The files of the imports of a unit that are not known yet. -/
def soughtImports (options : Options) (tree : FileTree) (known : List FoundUnit)
    (header : Header) : Except Failure (List SoughtFile) :=
  let missing := header.imports.filter fun name =>
    !known.any fun unit => unit.fullName == name
  missing.mapM fun name =>
    match options.importPath name with
    | .error fault => .error (.resolve (.importName fault))
    | .ok path =>
      if tree.isFile path then .ok ⟨path, some name⟩
      else .error (.resolve (.importMissing name header.path path))

/-- Checks that a file declares the unit it was imported as. -/
def checkExpected (sought : SoughtFile) (unit : FoundUnit) : Except Failure Unit :=
  match sought.expected with
  | none => .ok ()
  | some expected =>
    if expected == unit.fullName then .ok ()
    else .error (.resolve (.wrongUnit sought.path expected unit.fullName))

/-- Looks at the sought files in order and at everything they import.  A file that has been looked at
before adds nothing, and two files may not declare one unit. -/
def discoverFrom (options : Options) (tree : FileTree) (unread : List Location)
    (known : List FoundUnit) (queue : List SoughtFile) : Except Failure (List FoundUnit) :=
  match queue with
  | [] => .ok known
  | sought :: rest => do
    let unit ← scan tree sought.path
    checkExpected sought unit
    match known.find? fun other => other.fullName == unit.fullName with
    | some earlier =>
      if earlier.location == unit.location then discoverFrom options tree unread known rest
      else
        throw (.resolve (.declaredTwice unit.fullName earlier.header.path unit.header.path))
    | none =>
      let imports ← soughtImports options tree known unit.header
      if unit.location ∈ unread then
        discoverFrom options tree (unread.erase unit.location) (known ++ [unit]) (rest ++ imports)
      else discoverFrom options tree unread known rest
termination_by (unread.length, queue.length)
decreasing_by
  · exact Prod.Lex.right _ (by simp)
  · rename_i present
    refine Prod.Lex.left _ _ ?_
    rw [List.length_erase_of_mem present]
    exact Nat.sub_lt (List.length_pos_of_mem present) Nat.one_pos
  · exact Prod.Lex.right _ (by simp)

/-- All units that given files declare or need, by name. -/
def discover (options : Options) (tree : FileTree) (sources : List Path) :
    Except Failure (List FoundUnit) := do
  let found ← discoverFrom options tree tree.files [] (sources.map fun path => ⟨path, none⟩)
  return found.mergeSort fun left right => decide (left.fullName ≤ right.fullName)

/-- Units in an order in which imports come first. -/
def order (units : List FoundUnit) : Except Failure (List FoundUnit) :=
  match ImportGraph.order (units.map fun unit => ⟨unit.fullName, unit.header.imports⟩) with
  | .error names => .error (.cycle names)
  | .ok names => .ok (names.filterMap fun name => units.find? fun unit => unit.fullName == name)

end Resolution

/-- All units of a run, by name, and their files in compile order. -/
structure Resolution where
  units : List FoundUnit
  paths : List Path
  deriving DecidableEq, Inhabited

/-- Finds the units of a run and the order in which they are compiled. -/
def Resolution.resolve (options : Options) (tree : FileTree) : Except Failure Resolution := do
  let units ← discover options tree options.sources
  let ordered ← order units
  return ⟨units, ordered.map fun unit => unit.header.path⟩

end DriverIdl
