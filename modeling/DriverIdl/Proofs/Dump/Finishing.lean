import DriverIdl.Proofs.Dump.HeaderEffects
import DriverIdl.Proofs.Parsing.Publication

/-!
# Finishing a unit again

Without a fault, a unit is finished by making units of its new sequenceables and then of itself.  From
two states that are alike, the same units are added, under the same numbers.
-/

namespace DriverIdl

open Parse

namespace ParseState

variable {state first second : ParseState} {entry : String × CompiledUnit} {name : String}

/-- The namespaces of a program in which the type of a sequenceable is listed. -/
def listedNamespaces (namespaces : NamespaceTree) (declared : CompiledUnit) : NamespaceTree :=
  match declared.definitions.head? with
  | some type => namespaces.addSequenceable declared.namespaceId type
  | none => namespaces

/-- A sequenceable that was set aside has become a unit. -/
def withPublished (state : ParseState) (entry : String × CompiledUnit) : ParseState :=
  { state with
    program := { (state.program.add entry.2).2 with
      namespaces := listedNamespaces state.program.namespaces entry.2 }
    unit := { state.unit with
      imports := assignImport entry.1 (state.program.add entry.2).1 state.unit.imports } }

/-- The unit of a file has become one of the program. -/
def withOwnUnit (state : ParseState) : ParseState :=
  { state with program := ({ state.program with
      namespaces := match state.unit.interface with
        | some type => state.program.namespaces.addInterface state.unit.namespaceId type
        | none => state.program.namespaces }.add state.unit).2 }

theorem types_withOwnUnit (state : ParseState) : state.withOwnUnit.types = state.types :=
  (congrArg Program.types (Program.add_spec _ state.unit).1).trans rfl

theorem units_withOwnUnit (state : ParseState) : state.withOwnUnit.program.units =
    state.program.units ++
      if (state.program.find? state.unit.fullName).isNone then #[state.unit] else #[] := by
  have sameName : ∀ namespaces, ({ state.program with namespaces := namespaces } : Program).find?
      state.unit.fullName = state.program.find? state.unit.fullName := fun _ => rfl
  simp only [withOwnUnit, Program.add, sameName]
  cases state.program.find? state.unit.fullName <;> simp

theorem types_withPublished (state : ParseState) (entry : String × CompiledUnit) :
    (state.withPublished entry).types = state.types :=
  (congrArg Program.types (Program.add_spec state.program entry.2).1).trans rfl

/-- The new sequenceables of a file have become units. -/
def withSequenceables (state : ParseState) : ParseState :=
  state.sequenceables.foldl withPublished (settled state)

/-- A file is finished. -/
def withUnits (state : ParseState) : ParseState := state.withSequenceables.withOwnUnit

end ParseState

namespace Parse

open ParseState

variable {state : ParseState} {entry : String × CompiledUnit}

theorem publishSequenceable_eq (entry : String × CompiledUnit) (state : ParseState) :
    publishSequenceable entry state = .ok () (state.withPublished entry) := by
  obtain ⟨same, -⟩ := state.program.add_spec entry.2
  have kept : (state.program.add entry.2).2.namespaces = state.program.namespaces := by rw [same]
  cases declared : entry.2.definitions.head? <;>
    simp only [publishSequenceable, declared, withPublished, listedNamespaces, ← kept] <;> rfl

theorem forM_publishSequenceable_eq (entries : List (String × CompiledUnit)) (state : ParseState) :
    entries.forM publishSequenceable state = .ok () (entries.foldl withPublished state) := by
  induction entries generalizing state with
  | nil => rfl
  | cons entry rest ih =>
      have opened : (entry :: rest).forM publishSequenceable state =
          EStateM.bind (publishSequenceable entry) (fun _ => rest.forM publishSequenceable) state := rfl
      simp only [opened, EStateM.bind, publishSequenceable_eq, ih, List.foldl_cons]

theorem verifyUnit_eq (clean : state.errors = 0)
    (contained : Containment.verify state.types state.unit = []) :
    verifyUnit state = .ok () state := by
  have opened : verifyUnit state = .ok () { state with
      diagnostics := state.diagnostics ++ Containment.verify state.types state.unit
      errors := if (state.diagnostics ++ Containment.verify state.types state.unit).length ==
        state.diagnostics.length then 0 else 1 } := by
    simp only [verifyUnit, Bind.bind, EStateM.bind, get_run]
    rw [if_pos (by simpa using clean)]
    rfl
  rw [opened, contained]
  simp [← clean]

theorem settleKind_eq (oneThing : DeclaresOneThing state.unit) :
    settleKind state = .ok () (settled state) := by
  have sane : wholeFault? state = none := by
    unfold wholeFault?
    rcases oneThing with ⟨noInterface, defines⟩ | ⟨hasInterface, noDefinitions⟩
    · simp [noInterface, defines]
    · obtain ⟨type, isInterface⟩ := Option.ne_none_iff_exists'.mp hasInterface
      simp [isInterface, noDefinitions]
  rcases settleKind_run state with ⟨fault, wrong, -⟩ | ⟨-, run⟩
  · rw [sane] at wrong
    cases wrong
  · exact run

/-- A unit without a fault that declares one thing and contains nothing in itself is finished. -/
theorem finishUnit_eq (clean : state.errors = 0) (oneThing : DeclaresOneThing state.unit)
    (contained : Containment.verify state.types state.unit = []) :
    finishUnit state = .ok true state.withUnits := by
  have verified : verifyUnit (settled state) = .ok () (settled state) :=
    verifyUnit_eq clean contained
  have isClean : ((settled state).errors == 0) = true := by simpa [settled] using clean
  simp only [finishUnit, Bind.bind, EStateM.bind, settleKind_eq oneThing, verified, get_run,
    isClean, if_true, publish, forM_publishSequenceable_eq, modify_run]
  rfl

end Parse

namespace ParseState

variable {state first second : ParseState}

namespace Alike

theorem find? (alike : Alike first second) (name : String) :
    second.program.find? name = first.program.find? name := by
  rw [Program.find?, alike.units, Program.find?]

theorem settled (alike : Alike first second) : Alike (Parse.settled first) (Parse.settled second) :=
  { alike with
    unit := by
      have kind : unitKind second.types second.unit = unitKind first.types first.unit := by
        have interface : second.unit.interface = first.unit.interface := by rw [alike.unit]
        rw [unitKind, unitKind, interface]
        cases first.unit.interface with
        | none => rfl
        | some type =>
            simp only
            rw [← TypeArena.interface?_unplaced, alike.types, TypeArena.interface?_unplaced]
      simp only [Parse.settled, kind]
      rw [alike.unit] }

theorem withPublished (alike : Alike first second) (entry : String × CompiledUnit) :
    Alike (first.withPublished entry) (second.withPublished entry) where
  types := by rw [types_withPublished, types_withPublished, alike.types]
  namespaces := by simp only [ParseState.withPublished, alike.namespaces]
  units := by
    simp only [ParseState.withPublished, Program.add, alike.find?, alike.units]
    cases first.program.find? entry.2.fullName <;> simp [alike.units]
  unit := by
    simp only [ParseState.withPublished, Program.add, alike.find?, alike.units]
    rw [alike.unit]
    cases first.program.find? entry.2.fullName <;> rfl
  visible := alike.visible
  sequenceables := alike.sequenceables
  errors := alike.errors

theorem foldl_withPublished (alike : Alike first second) (entries : List (String × CompiledUnit)) :
    Alike (entries.foldl ParseState.withPublished first)
      (entries.foldl ParseState.withPublished second) := by
  induction entries generalizing first second with
  | nil => exact alike
  | cons entry rest ih => exact ih (alike.withPublished entry)

/-- From states that are alike the same units are added. -/
theorem withUnits (alike : Alike first second) :
    second.withUnits.types.unplaced = first.withUnits.types.unplaced ∧
      ∀ (id : UnitId) (unit : CompiledUnit), first.withUnits.program.units[id]? = some unit →
        ∃ other : CompiledUnit, second.withUnits.program.units[id]? = some other ∧
          other = { unit with table := other.table } ∧
          ∀ key, other.visibleType? key = unit.visibleType? key := by
  have finished := alike.settled.foldl_withPublished first.sequenceables
  rw [ParseState.withUnits, ParseState.withUnits, withSequenceables, withSequenceables,
    alike.sequenceables]
  generalize first.sequenceables.foldl ParseState.withPublished (Parse.settled first) = before at *
  generalize first.sequenceables.foldl ParseState.withPublished (Parse.settled second) = after at *
  have named : after.unit.fullName = before.unit.fullName := by
    rw [CompiledUnit.fullName, CompiledUnit.fullName, finished.unit]
  have found : after.program.find? after.unit.fullName = before.program.find? before.unit.fullName := by
    rw [named, finished.find?]
  refine ⟨by rw [types_withOwnUnit, types_withOwnUnit, finished.types], fun id unit present => ?_⟩
  rw [units_withOwnUnit, found, finished.units]
  rw [units_withOwnUnit] at present
  split at present
  · rename_i isFree
    rw [if_pos isFree]
    rw [Array.getElem?_append] at present ⊢
    split at present
    · rename_i early
      rw [if_pos early]
      exact ⟨unit, present, rfl, fun _ => rfl⟩
    · rename_i late
      rw [if_neg late]
      obtain ⟨isLast, rfl⟩ : id - before.program.units.size = 0 ∧ before.unit = unit := by
        simpa [List.getElem?_singleton] using present
      exact ⟨after.unit, by simp [isLast], finished.unit, finished.visible⟩
  · rename_i isTaken
    rw [if_neg isTaken]
    exact ⟨unit, present, rfl, fun _ => rfl⟩

end Alike

/-- The imports that are new when sequenceables become units. -/
theorem imports_foldl_withPublished {entries : List (String × CompiledUnit)} {state : ParseState}
    (new : ∀ entry ∈ entries, ∀ listed ∈ state.unit.imports, listed.1 ≠ entry.1)
    (distinct : (entries.map Prod.fst).Nodup) :
    ∃ added, (entries.foldl withPublished state).unit.imports = state.unit.imports ++ added ∧
      added.map Prod.fst = entries.map Prod.fst := by
  induction entries generalizing state with
  | nil => exact ⟨[], by simp, rfl⟩
  | cons entry rest ih =>
      obtain ⟨once, distinctLater⟩ := List.nodup_cons.mp distinct
      obtain ⟨first, later⟩ := List.forall_mem_cons.mp new
      have assigned : (state.withPublished entry).unit.imports =
          state.unit.imports ++ [(entry.1, (state.program.add entry.2).1)] :=
        assignImport_of_new first
      obtain ⟨added, imports, names⟩ := @ih (state.withPublished entry)
        (fun other listed known isKnown => by
          rw [assigned] at isKnown
          rcases List.mem_append.mp isKnown with early | isFirst
          · exact later other listed known early
          · obtain rfl := List.mem_singleton.mp isFirst
            exact fun same => once (List.mem_map.mpr ⟨other, listed, same.symm⟩)) distinctLater
      refine ⟨(entry.1, (state.program.add entry.2).1) :: added, ?_, by simp [names]⟩
      rw [List.foldl_cons, imports, assigned]
      simp

theorem published_foldl {entries : List (String × CompiledUnit)}
    (imports : ∀ entry ∈ state.unit.imports, state.program.find? entry.1 = some entry.2)
    (named : ∀ entry ∈ entries, entry.2.fullName = entry.1) :
    Published state entries (entries.foldl withPublished state) := by
  obtain ⟨after, run, published⟩ := forM_publishSequenceable_run (.none imports) named
  cases (forM_publishSequenceable_eq entries state).symm.trans run
  exact published

/-- A new unit that is no sequenceable is that of the file. -/
theorem eq_ownUnit {last : ParseState} {entries : List (String × CompiledUnit)} {id : UnitId}
    {unit : CompiledUnit} (published : Published state entries last)
    (sequenceables : ∀ entry ∈ entries, entry.2.kind = .sequenceable)
    (present : last.withOwnUnit.program.units[id]? = some unit)
    (isNew : state.program.units.size ≤ id) (other : unit.kind ≠ .sequenceable) :
    unit = last.unit := by
  obtain ⟨added, units, isAdded⟩ := published.units
  rw [units_withOwnUnit, units, Array.append_assoc, Array.getElem?_append_right isNew] at present
  rcases Array.mem_append.mp (Array.mem_of_getElem? present) with early | own
  · obtain ⟨entry, listed, rfl⟩ := isAdded unit early
    exact absurd (sequenceables entry listed) other
  · split at own
    · simpa using own
    · simp at own

end ParseState

end DriverIdl
