import DriverIdl.Header

/-!
# Order of imports

Units are compiled after everything they import.  Of the units that could come next, those that
became ready first go first, and of these the one with the smaller name.
-/

namespace DriverIdl

/-- A unit that waits for the imports it still lacks. -/
structure WaitingUnit where
  name : String
  imports : List String
  deriving DecidableEq, Inhabited

/-- A waiting unit after one of its imports has been placed. -/
def WaitingUnit.without (unit : WaitingUnit) (placed : String) : WaitingUnit :=
  { unit with imports := unit.imports.erase placed }

namespace ImportGraph

/-- Splits off the units that lack nothing. -/
def splitReady (units : List WaitingUnit) : List WaitingUnit × List WaitingUnit :=
  units.partition fun unit => unit.imports.isEmpty

theorem length_splitReady (units : List WaitingUnit) :
    (splitReady units).1.length + (splitReady units).2.length = units.length := by
  simp only [splitReady, List.partition_eq_filter_filter]
  induction units with
  | nil => rfl
  | cons unit rest ih =>
    cases ready : unit.imports.isEmpty <;> simp [ready] <;> omega

/-- Waiting units after one of them has been placed: those that lack nothing any more, and the rest. -/
def advance (placed : String) (waiting : List WaitingUnit) : List WaitingUnit × List WaitingUnit :=
  splitReady (waiting.map fun unit => unit.without placed)

theorem length_advance (placed : String) (waiting : List WaitingUnit) :
    (advance placed waiting).1.length + (advance placed waiting).2.length = waiting.length := by
  rw [advance, length_splitReady, List.length_map]

/-- Places ready units in order behind those placed already; a unit that is placed may make others
ready.  What never becomes ready is left over. -/
def place (placed : List String) (ready waiting : List WaitingUnit) :
    List String × List WaitingUnit :=
  match ready with
  | [] => (placed, waiting)
  | unit :: others =>
    place (placed ++ [unit.name]) (others ++ (advance unit.name waiting).1)
      (advance unit.name waiting).2
termination_by ready.length + waiting.length
decreasing_by
  have same := length_advance unit.name waiting
  simp only [List.length_append, List.length_cons]
  omega

/-- The names of units in an order that respects their imports, or the names of the units that
cannot be placed: they import each other in a circle, or depend on units that do. -/
def order (units : List WaitingUnit) : Except (List String) (List String) :=
  let (ready, waiting) := splitReady units
  match place [] ready waiting with
  | (placed, []) => .ok placed
  | (_, leftOver) => .error (leftOver.map WaitingUnit.name)

end ImportGraph

end DriverIdl
