import DriverIdl.Diagnostic
import DriverIdl.Model.CompiledUnit

/-!
# Containment by value

No struct or union may contain itself by value, and the members of a union must be plain data.  Both
rules need every declaration of a unit in place, so they are checked when the unit has been read.
-/

namespace DriverIdl

/-- The body of a struct or union. -/
def TypeArena.record? (arena : TypeArena) (id : TypeId) : Option RecordType :=
  match arena.node id with
  | .struct record | .union record => some record
  | _ => none

namespace Containment

/-- Types on the path that is being followed, and types that have been left. -/
structure Marks where
  active : List TypeId := []
  done : List TypeId := []
  deriving Inhabited

/-- Follows members in order, given how the type of one is followed, up to the first type found
inside itself. -/
def followMembers (follow : TypeId → Marks → Option TypeId × Marks) :
    List Member → Marks → Option TypeId × Marks
  | [], marks => (none, marks)
  | member :: rest, marks =>
    match follow member.type marks with
    | (some culprit, after) => (some culprit, after)
    | (none, after) => followMembers follow rest after

/-- Follows the members of types by value, at most `depth` deep, and answers the first type found
inside itself.  Below the last level it goes on as if nothing was found.  It gets there only if there
are no more levels than types, for a path holds each type at most once. -/
def visit (arena : TypeArena) : Nat → TypeId → Marks → Option TypeId × Marks
  | 0, _, marks => (none, marks)
  | depth + 1, id, marks =>
    match arena.record? id with
    | none => (none, marks)
    | some record =>
      if marks.active.contains id then (some id, marks)
      else if marks.done.contains id then (none, marks)
      else
        let entered : Marks := { marks with active := id :: marks.active }
        match followMembers (visit arena depth) record.members entered with
        | (some culprit, after) => (some culprit, after)
        | (none, after) => (none, ⟨after.active.erase id, id :: after.done⟩)

/-- Leaves every type on the path. -/
def Marks.leaveAll (marks : Marks) : Marks := ⟨[], marks.active ++ marks.done⟩

/-- The first type found inside itself below each of some types, along paths of at most `depth`
types. -/
def selfContainingWithin (arena : TypeArena) (depth : Nat) : List TypeId → Marks → List TypeId
  | [], _ => []
  | root :: rest, marks =>
    match visit arena depth root marks with
    | (some culprit, after) => culprit :: selfContainingWithin arena depth rest after.leaveAll
    | (none, after) => selfContainingWithin arena depth rest after

/-- The first type found inside itself below each of some types.  A path holds a type at most once,
so it is at most as long as the arena. -/
def selfContaining (arena : TypeArena) (roots : List TypeId) : List TypeId :=
  selfContainingWithin arena (arena.size + 1) roots {}

/-- The faults of types that contain themselves. -/
def nestingFaults (arena : TypeArena) (roots : List TypeId) : List (Position × SourceFault) :=
  (selfContaining arena roots).filterMap fun culprit =>
    (arena.record? culprit).map fun record => (record.place, .recursiveNesting record.name)

/-- The faults of union members that are not plain data. -/
def unionFaults (arena : TypeArena) (roots : List TypeId) : List (Position × SourceFault) :=
  roots.flatMap fun root =>
    match arena.node root with
    | .union record =>
      (record.members.filter fun member => (arena.fixedSize? member.type).isNone).map fun member =>
        (member.place, .unionMember member.name record.name (arena.spelling member.type))
    | _ => []

/-- The faults of a unit's declarations.  Sizes mean something only if no type contains itself. -/
def faults (arena : TypeArena) (definitions : List TypeId) : List (Position × SourceFault) :=
  match nestingFaults arena definitions with
  | [] => unionFaults arena definitions
  | nested => nested

/-- The diagnostics of a unit's declarations. -/
def verify (arena : TypeArena) (unit : CompiledUnit) : List Diagnostic :=
  (faults arena unit.definitions).map fun (place, fault) => ⟨unit.path, place, fault⟩

/-- Checks the declarations of a unit: what is wrong is put behind earlier diagnostics, and the
answer is whether nothing was. -/
def check (arena : TypeArena) (unit : CompiledUnit) (earlier : List Diagnostic) :
    Bool × List Diagnostic :=
  let diagnostics := earlier ++ verify arena unit
  (diagnostics.length == earlier.length, diagnostics)

end Containment

end DriverIdl
