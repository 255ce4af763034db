import DriverIdl.Proofs.Containment.Search

/-!
# The search without levels

`Walks` is the search as a run that goes on until it is done: it has no levels that could be used
up, and a run is there only if the search ends.  The search with levels answers what the run ends
with as soon as there are more levels than types, because a path holds each of its types once.
-/

namespace DriverIdl

namespace Containment

variable {arena : TypeArena}

/-- Types are followed in order, each of them with all that is in it, up to the first type that is
found inside itself. -/
inductive Walks (arena : TypeArena) : List TypeId → Marks → Option TypeId → Marks → Prop where
  | nil {marks : Marks} : Walks arena [] marks none marks
  | leaf {id : TypeId} {rest : List TypeId} {marks after : Marks} {found : Option TypeId}
      (noRecord : arena.record? id = none) (others : Walks arena rest marks found after) :
      Walks arena (id :: rest) marks found after
  | again {id : TypeId} {record : RecordType} {rest : List TypeId} {marks : Marks}
      (isRecord : arena.record? id = some record) (isActive : id ∈ marks.active) :
      Walks arena (id :: rest) marks (some id) marks
  | known {id : TypeId} {record : RecordType} {rest : List TypeId} {marks after : Marks}
      {found : Option TypeId} (isRecord : arena.record? id = some record)
      (fresh : id ∉ marks.active) (isDone : id ∈ marks.done)
      (others : Walks arena rest marks found after) : Walks arena (id :: rest) marks found after
  | inside {id culprit : TypeId} {record : RecordType} {rest : List TypeId} {marks after : Marks}
      (isRecord : arena.record? id = some record) (fresh : id ∉ marks.active)
      (notDone : id ∉ marks.done)
      (members : Walks arena (record.members.map Member.type) ⟨id :: marks.active, marks.done⟩
        (some culprit) after) :
      Walks arena (id :: rest) marks (some culprit) after
  | left {id : TypeId} {record : RecordType} {rest : List TypeId} {marks walked after : Marks}
      {found : Option TypeId} (isRecord : arena.record? id = some record)
      (fresh : id ∉ marks.active) (notDone : id ∉ marks.done)
      (members : Walks arena (record.members.map Member.type) ⟨id :: marks.active, marks.done⟩
        none walked)
      (others : Walks arena rest ⟨walked.active.erase id, id :: walked.done⟩ found after) :
      Walks arena (id :: rest) marks found after

namespace Walks

variable {id culprit : TypeId} {ids rest : List TypeId} {marks middle after : Marks}
  {found : Option TypeId}

/-- The search ends in one way only. -/
theorem unique (walks : Walks arena ids marks found after) {other : Option TypeId} {stop : Marks}
    (walksToo : Walks arena ids marks other stop) : other = found ∧ stop = after := by
  induction walks generalizing other stop with
  | nil =>
      cases walksToo
      exact ⟨rfl, rfl⟩
  | leaf noRecord _ ih =>
      cases walksToo with
      | leaf _ others => exact ih others
      | again isRecord | known isRecord | inside isRecord | left isRecord =>
          cases noRecord.symm.trans isRecord
  | again isRecord isActive =>
      cases walksToo with
      | leaf noRecord => cases noRecord.symm.trans isRecord
      | again => exact ⟨rfl, rfl⟩
      | known _ fresh | inside _ fresh | left _ fresh => exact absurd isActive fresh
  | known isRecord fresh isDone _ ih =>
      cases walksToo with
      | leaf noRecord => cases noRecord.symm.trans isRecord
      | again _ isActive => exact absurd isActive fresh
      | known _ _ _ others => exact ih others
      | inside _ _ notDone | left _ _ notDone => exact absurd isDone notDone
  | inside isRecord fresh notDone _ ih =>
      cases walksToo with
      | leaf noRecord => cases noRecord.symm.trans isRecord
      | again _ isActive => exact absurd isActive fresh
      | known _ _ isDone => exact absurd isDone notDone
      | inside sameRecord _ _ members =>
          obtain rfl := Option.some.inj (isRecord.symm.trans sameRecord)
          exact ih members
      | left sameRecord _ _ members =>
          obtain rfl := Option.some.inj (isRecord.symm.trans sameRecord)
          cases (ih members).1
  | left isRecord fresh notDone _ _ insideIh behindIh =>
      cases walksToo with
      | leaf noRecord => cases noRecord.symm.trans isRecord
      | again _ isActive => exact absurd isActive fresh
      | known _ _ isDone => exact absurd isDone notDone
      | inside sameRecord _ _ members =>
          obtain rfl := Option.some.inj (isRecord.symm.trans sameRecord)
          cases (insideIh members).1
      | left sameRecord _ _ members others =>
          obtain rfl := Option.some.inj (isRecord.symm.trans sameRecord)
          obtain ⟨-, rfl⟩ := insideIh members
          exact behindIh others

end Walks

/-- Roots are searched one after the other with the marks of the ones in front; a find is reported,
and the search of the next root starts with an empty path. -/
inductive Reports (arena : TypeArena) : List TypeId → Marks → List TypeId → Prop where
  | nil {marks : Marks} : Reports arena [] marks []
  | quiet {root : TypeId} {rest culprits : List TypeId} {marks after : Marks}
      (walks : Walks arena [root] marks none after) (others : Reports arena rest after culprits) :
      Reports arena (root :: rest) marks culprits
  | found {root culprit : TypeId} {rest culprits : List TypeId} {marks after : Marks}
      (walks : Walks arena [root] marks (some culprit) after)
      (others : Reports arena rest after.leaveAll culprits) :
      Reports arena (root :: rest) marks (culprit :: culprits)

namespace Reports

variable {roots culprits : List TypeId} {marks : Marks}

theorem unique (reports : Reports arena roots marks culprits) {others : List TypeId}
    (reportsToo : Reports arena roots marks others) : others = culprits := by
  induction reports generalizing others with
  | nil =>
      cases reportsToo
      rfl
  | quiet walks _ ih =>
      cases reportsToo with
      | quiet walksToo behind =>
          obtain ⟨-, rfl⟩ := walks.unique walksToo
          exact ih behind
      | found walksToo _ => cases (walks.unique walksToo).1
  | found walks _ ih =>
      cases reportsToo with
      | quiet walksToo _ => cases (walks.unique walksToo).1
      | found walksToo behind =>
          obtain ⟨same, rfl⟩ := walks.unique walksToo
          cases same
          rw [ih behind]

end Reports

end Containment

end DriverIdl
