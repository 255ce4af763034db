import DriverIdl.Proofs.Parsing.SourceFile

/-!
# How a file ends

A file that was read without an error still has to declare one thing and to contain no type in
itself.  If it does, the sequenceables it set aside become units, and then its own unit does, unless
a unit of that name is there already.
-/

namespace DriverIdl

namespace Parse

open ParseState

variable {before after : ParseState}

/-- The state with the kind of its unit. -/
def settled (state : ParseState) : ParseState :=
  { state with unit := { state.unit with kind := unitKind state.types state.unit } }

/-- A unit declares types or an interface, and not both. -/
def DeclaresOneThing (unit : CompiledUnit) : Prop :=
  (unit.interface = none ∧ unit.definitions ≠ []) ∨ (unit.interface ≠ none ∧ unit.definitions = [])

theorem declaresOneThing_of_wholeFault? {state : ParseState} (sane : wholeFault? state = none)
    (clean : state.errors = 0) : DeclaresOneThing state.unit := by
  unfold wholeFault? at sane
  cases declared : state.unit.interface with
  | some type => exact .inr ⟨by simp [declared], by simpa [declared] using sane⟩
  | none => exact .inl ⟨declared, by simpa [declared, clean] using sane⟩

/-- What a file declares as a whole is a matter of structure. -/
theorem kind_of_wholeFault? {state : ParseState} {fault : SourceFault}
    (wrong : wholeFault? state = some fault) : fault.kind = .structural := by
  unfold wholeFault? at wrong
  split at wrong <;> split at wrong <;> cases wrong <;> rfl

/-- Containment has two kinds of faults. -/
theorem fault_of_mem_verify {arena : TypeArena} {unit : CompiledUnit} {diagnostic : Diagnostic}
    (listed : diagnostic ∈ Containment.verify arena unit) :
    (∃ name, diagnostic.fault = .recursiveNesting name) ∨
      ∃ member union spelling, diagnostic.fault = .unionMember member union spelling := by
  obtain ⟨entry, isFault, rfl⟩ := List.mem_map.mp listed
  have members : entry ∈ Containment.unionFaults arena unit.definitions →
      ∃ member union spelling, entry.2 = .unionMember member union spelling := by
    intro isFault
    obtain ⟨root, -, found⟩ := List.mem_flatMap.mp isFault
    split at found
    · obtain ⟨member, -, rfl⟩ := List.mem_map.mp found
      exact ⟨_, _, _, rfl⟩
    · cases found
  have nesting : entry ∈ Containment.nestingFaults arena unit.definitions →
      ∃ name, entry.2 = .recursiveNesting name := by
    intro isFault
    obtain ⟨culprit, -, found⟩ := List.mem_filterMap.mp isFault
    obtain ⟨record, -, rfl⟩ := Option.map_eq_some_iff.mp found
    exact ⟨_, rfl⟩
  unfold Containment.faults at isFault
  split at isFault
  · exact .inr (members isFault)
  · exact .inl (nesting isFault)

/-- Containment is a matter of meaning. -/
theorem kind_of_mem_verify {arena : TypeArena} {unit : CompiledUnit} {diagnostic : Diagnostic}
    (listed : diagnostic ∈ Containment.verify arena unit) : diagnostic.kind = .semantic := by
  rw [Diagnostic.kind]
  rcases fault_of_mem_verify listed with ⟨_, isFault⟩ | ⟨_, _, _, isFault⟩ <;> rw [isFault] <;> rfl

/-- What is reported of a file as a whole or of its types; it is not about tokens or grammar. -/
structure Refuses (before after : ParseState) : Prop where
  program : after.program = before.program
  diagnostics : ∃ found, after.diagnostics = before.diagnostics ++ found ∧
    (before.errors = 0 → found ≠ []) ∧
    ∀ diagnostic ∈ found, diagnostic.kind = .semantic ∨ diagnostic.kind = .structural
  errors : after.errors ≠ 0

/-- Containment is checked in a unit without errors, and changes nothing if nothing is wrong. -/
theorem verifyUnit_cases (state : ParseState) :
    (verifyUnit state = .ok () state ∧
        (state.errors = 0 → Containment.verify state.types state.unit = [])) ∨
      ∃ after, verifyUnit state = .ok () after ∧ Refuses state after := by
  have opened : verifyUnit state =
      if state.errors == 0 then
        .ok () { state with
          diagnostics := state.diagnostics ++ Containment.verify state.types state.unit
          errors := if (state.diagnostics ++ Containment.verify state.types state.unit).length ==
            state.diagnostics.length then 0 else 1 }
      else .ok () state := by
    simp only [verifyUnit, Bind.bind, EStateM.bind, get_run]
    split <;> rfl
  rw [opened]
  by_cases clean : state.errors = 0
  · rw [if_pos (by simpa using clean)]
    cases wrong : Containment.verify state.types state.unit with
    | nil => exact .inl ⟨by simp [← clean], fun _ => rfl⟩
    | cons first rest =>
        refine .inr ⟨_, rfl, rfl, ⟨first :: rest, rfl, by simp, ?_⟩, by simp⟩
        intro diagnostic listed
        exact .inl (kind_of_mem_verify (wrong ▸ listed))
  · rw [if_neg (by simpa using clean)]
    exact .inl ⟨rfl, fun isClean => absurd isClean clean⟩

theorem settleKind_run (state : ParseState) :
    (∃ fault, wholeFault? state = some fault ∧
        settleKind state = report ⟨1, 1⟩ fault (settled state)) ∨
      (wholeFault? state = none ∧ settleKind state = .ok () (settled state)) := by
  simp only [settleKind, Bind.bind, EStateM.bind, get_run]
  cases wholeFault? state with
  | some fault => exact .inl ⟨fault, rfl, rfl⟩
  | none => exact .inr ⟨rfl, rfl⟩

/-- A file with an error is refused.  One without is refused if what it declares as a whole is
wrong, and published otherwise. -/
theorem finishUnit_cases (state : ParseState) :
    (∃ after, finishUnit state = .ok false after ∧ Refuses state after) ∨
      (state.errors = 0 ∧ DeclaresOneThing state.unit ∧
        Containment.verify state.types state.unit = [] ∧
        finishUnit state = EStateM.bind publish (fun _ => pure true) (settled state)) := by
  have opened : finishUnit state = EStateM.bind settleKind (fun _ => EStateM.bind verifyUnit fun _ =>
      EStateM.bind get fun (final : ParseState) =>
        if final.errors == 0 then EStateM.bind publish (fun _ => pure true) else pure false) state := rfl
  rw [opened, EStateM.bind]
  rcases settleKind_run state with ⟨fault, whole, reported⟩ | ⟨whole, passed⟩
  · left
    rw [reported]
    refine ⟨_, rfl, rfl, ⟨_, rfl, by simp, ?_⟩, Nat.succ_ne_zero _⟩
    intro diagnostic listed
    rw [List.mem_singleton.mp listed]
    exact .inr (kind_of_wholeFault? whole)
  · rw [passed]
    rcases verifyUnit_cases (settled state) with ⟨verified, contained⟩ | ⟨after, refused, refuses⟩
    · simp only [EStateM.bind, verified, get_run]
      by_cases clean : state.errors = 0
      · refine .inr ⟨clean, declaresOneThing_of_wholeFault? whole clean, contained clean, ?_⟩
        rw [if_pos (by simpa [settled] using clean)]
        rfl
      · refine .inl ⟨settled state, ?_, rfl, ⟨[], by simp [settled],
          fun isClean => absurd isClean clean, by simp⟩, clean⟩
        rw [if_neg (by simpa [settled] using clean)]
        rfl
    · refine .inl ⟨after, ?_, refuses.program, refuses.diagnostics, refuses.errors⟩
      simp only [EStateM.bind, refused, get_run]
      rw [if_neg (by simpa using refuses.errors)]
      rfl

section Publish

variable {name : String} {id : UnitId} {imports : List (String × UnitId)}
  {entry : String × UnitId}

theorem mem_assignImport (listed : entry ∈ assignImport name id imports) :
    entry = (name, id) ∨ entry ∈ imports := by
  induction imports with
  | nil => exact .inl (List.mem_singleton.mp listed)
  | cons first rest ih =>
      rw [assignImport] at listed
      split at listed
      · rename_i same
        rcases List.mem_cons.mp listed with isFirst | later
        · rw [isFirst, eq_of_beq same]
          exact .inl rfl
        · exact .inr (List.mem_cons_of_mem _ later)
      · rcases List.mem_cons.mp listed with isFirst | later
        · exact .inr (isFirst ▸ List.mem_cons_self)
        · exact (ih later).imp_right (List.mem_cons_of_mem _)

theorem mem_assignImport_of_mem (listed : entry ∈ imports) (same : entry.1 = name → entry.2 = id) :
    entry ∈ assignImport name id imports := by
  induction imports with
  | nil => cases listed
  | cons first rest ih =>
      rw [assignImport]
      split
      · rename_i isName
        rcases List.mem_cons.mp listed with rfl | later
        · rw [← same (eq_of_beq isName)]
          exact List.mem_cons_self
        · exact List.mem_cons_of_mem _ later
      · rcases List.mem_cons.mp listed with rfl | later
        · exact List.mem_cons_self
        · exact List.mem_cons_of_mem _ (ih later)

/-- Some of the sequenceables that a file has set aside are units of the program. -/
structure Published (start : ParseState) (done : List (String × CompiledUnit))
    (state : ParseState) :
    Prop where
  types : state.types = start.types
  namespaces : start.program.namespaces.Extends state.program.namespaces
  units : ∃ added, state.program.units = start.program.units ++ added ∧
    ∀ unit ∈ added, ∃ entry ∈ done, entry.2 = unit
  unit : state.unit = { start.unit with imports := state.unit.imports }
  imports : ∀ entry ∈ state.unit.imports, state.program.find? entry.1 = some entry.2
  kept : start.unit.imports ⊆ state.unit.imports
  found : ∀ entry ∈ done, ∃ id, state.program.find? entry.1 = some id
  diagnostics : state.diagnostics = start.diagnostics
  listed : ∀ id, ∀ type ∈ (state.program.namespaces.node id).listed,
    type ∈ (start.program.namespaces.node id).listed ∨ ∃ entry ∈ done, type ∈ entry.2.definitions

theorem Published.none {start : ParseState}
    (imports : ∀ entry ∈ start.unit.imports, start.program.find? entry.1 = some entry.2) :
    Published start [] start where
  types := rfl
  namespaces := .refl _
  units := ⟨#[], by simp, by simp⟩
  unit := rfl
  imports := imports
  kept := List.Subset.refl _
  found := by simp
  diagnostics := rfl
  listed _ _ isListed := .inl isListed

theorem publishSequenceable_run (entry : String × CompiledUnit) (state : ParseState) :
    ∃ namespaces, publishSequenceable entry state = .ok () { state with
        program := { (state.program.add entry.2).2 with namespaces := namespaces }
        unit := { state.unit with
          imports := assignImport entry.1 (state.program.add entry.2).1 state.unit.imports } } ∧
      state.program.namespaces.Extends namespaces ∧
      ∀ id, ∀ type ∈ (namespaces.node id).listed,
        type ∈ (state.program.namespaces.node id).listed ∨ type ∈ entry.2.definitions := by
  obtain ⟨same, -⟩ := state.program.add_spec entry.2
  have kept : (state.program.add entry.2).2.namespaces = state.program.namespaces := by rw [same]
  cases declared : entry.2.definitions.head? with
  | none =>
      refine ⟨(state.program.add entry.2).2.namespaces, ?_, kept ▸ .refl _,
        kept ▸ fun _ _ listed => .inl listed⟩
      simp only [publishSequenceable, declared]
      rfl
  | some type =>
      refine ⟨(state.program.add entry.2).2.namespaces.addSequenceable entry.2.namespaceId type, ?_,
        kept ▸ NamespaceTree.extends_addSequenceable _ _ _, ?_⟩
      · simp only [publishSequenceable, declared]
        rfl
      · intro id listed isListed
        rw [kept] at isListed
        refine (NamespaceTree.mem_listed_addSequenceable _ isListed).imp_right ?_
        rintro rfl
        exact List.mem_of_head? declared

/-- A sequenceable that is published can be found by its name. -/
theorem Published.step {start state : ParseState} {done : List (String × CompiledUnit)}
    {entry : String × CompiledUnit} (published : Published start done state)
    (named : entry.2.fullName = entry.1) :
    ∃ after, publishSequenceable entry state = .ok () after ∧
      Published start (done ++ [entry]) after := by
  obtain ⟨same, ⟨new, units, isEntry⟩, found⟩ := state.program.add_spec entry.2
  obtain ⟨earlier, earlierUnits, ofDone⟩ := published.units
  rw [named] at found
  have stays : ∀ {name id}, state.program.find? name = some id →
      (state.program.add entry.2).2.find? name = some id := Program.find?_of_units units
  obtain ⟨namespaces, run, grown, lists⟩ := publishSequenceable_run entry state
  refine ⟨_, run, ?_⟩
  exact
    { types := by rw [same]; exact published.types
      namespaces := published.namespaces.trans grown
      units := by
        refine ⟨earlier ++ new, by rw [units, earlierUnits, Array.append_assoc], ?_⟩
        intro unit listed
        rcases Array.mem_append.mp listed with early | late
        · obtain ⟨other, isDone, rfl⟩ := ofDone unit early
          exact ⟨other, by simp [isDone], rfl⟩
        · exact ⟨entry, by simp, (isEntry unit late).1.symm⟩
      unit := by rw [published.unit]
      imports := by
        intro listed isListed
        rcases mem_assignImport isListed with rfl | isEarlier
        · exact found
        · exact stays (published.imports listed isEarlier)
      kept := by
        intro listed isListed
        have isEarlier := published.kept isListed
        apply mem_assignImport_of_mem isEarlier
        intro isName
        have foundEarlier := stays (published.imports listed isEarlier)
        rw [isName, found] at foundEarlier
        exact (Option.some.inj foundEarlier).symm
      found := by
        intro listed isListed
        rcases List.mem_append.mp isListed with isDone | isLast
        · obtain ⟨id, foundEarlier⟩ := published.found listed isDone
          exact ⟨id, stays foundEarlier⟩
        · rw [List.mem_singleton.mp isLast]
          exact ⟨_, found⟩
      diagnostics := published.diagnostics
      listed := by
        intro id type isListed
        rcases lists id type isListed with earlier | isNew
        · refine (published.listed id type earlier).imp_right fun ⟨other, isDone, defined⟩ => ?_
          exact ⟨other, by simp [isDone], defined⟩
        · exact .inr ⟨entry, by simp, isNew⟩ }

theorem forM_publishSequenceable_run {start state : ParseState}
    {done entries : List (String × CompiledUnit)} (published : Published start done state)
    (named : ∀ entry ∈ entries, entry.2.fullName = entry.1) :
    ∃ after, entries.forM publishSequenceable state = .ok () after ∧
      Published start (done ++ entries) after := by
  induction entries generalizing done state with
  | nil => exact ⟨state, rfl, by simpa using published⟩
  | cons entry rest ih =>
      obtain ⟨next, firstRun, publishedNext⟩ := published.step (named entry (by simp))
      obtain ⟨after, restRun, publishedAll⟩ :=
        ih publishedNext fun other listed => named other (by simp [listed])
      refine ⟨after, ?_, by simpa using publishedAll⟩
      have opened : (entry :: rest).forM publishSequenceable state =
          EStateM.bind (publishSequenceable entry) (fun _ => rest.forM publishSequenceable) state := rfl
      simp only [opened, EStateM.bind, firstRun, restRun]

/-- Publishing reports nothing. -/
theorem publish_diagnostics (state : ParseState) :
    ∃ after, publish state = .ok () after ∧ after.diagnostics = state.diagnostics := by
  have entries (listed : List (String × CompiledUnit)) : ∀ state : ParseState,
      ∃ after, listed.forM publishSequenceable state = .ok () after ∧
        after.diagnostics = state.diagnostics := by
    induction listed with
    | nil => exact fun state => ⟨state, rfl, rfl⟩
    | cons entry rest ih =>
        intro state
        obtain ⟨next, firstRun, kept⟩ : ∃ next, publishSequenceable entry state = .ok () next ∧
            next.diagnostics = state.diagnostics := by
          obtain ⟨namespaces, run, -⟩ := publishSequenceable_run entry state
          exact ⟨_, run, rfl⟩
        obtain ⟨after, restRun, same⟩ := ih next
        refine ⟨after, ?_, same.trans kept⟩
        have opened : (entry :: rest).forM publishSequenceable state =
            EStateM.bind (publishSequenceable entry) (fun _ => rest.forM publishSequenceable) state :=
          rfl
        simp only [opened, EStateM.bind, firstRun, restRun]
  obtain ⟨published, run, same⟩ := entries state.sequenceables state
  simp only [publish, Bind.bind, EStateM.bind, get_run, run, modify_run]
  exact ⟨_, rfl, same⟩

/-- Finishing a file reports nothing about tokens or grammar, and something if it refuses a file
that had no fault before. -/
theorem finishUnit_faults (state : ParseState) :
    ∃ accepted after found, finishUnit state = .ok accepted after ∧
      after.diagnostics = state.diagnostics ++ found ∧
      (accepted = true → state.errors = 0 ∧ found = []) ∧
      (accepted = false → state.errors = 0 → found ≠ []) ∧
      ∀ diagnostic ∈ found, diagnostic.kind = .semantic ∨ diagnostic.kind = .structural := by
  rcases finishUnit_cases state with ⟨after, run, refuses⟩ | ⟨clean, -, -, run⟩
  · obtain ⟨found, grown, wrong, kinds⟩ := refuses.diagnostics
    exact ⟨false, after, found, run, grown, by simp, fun _ => wrong, kinds⟩
  · obtain ⟨after, published, same⟩ := publish_diagnostics (settled state)
    refine ⟨true, after, [], ?_, ?_, fun _ => ⟨clean, rfl⟩, by simp, by simp⟩
    · rw [run, EStateM.bind, published]
      rfl
    · rw [same, List.append_nil]
      rfl

/-- The unit of a file follows its sequenceables, if its name is still free. -/
theorem publish_run {start : ParseState}
    (imports : ∀ entry ∈ start.unit.imports, start.program.find? entry.1 = some entry.2)
    (named : ∀ entry ∈ start.sequenceables, entry.2.fullName = entry.1) :
    ∃ state namespaces, Published start start.sequenceables state ∧
      state.program.namespaces.Extends namespaces ∧
      (∀ id, ∀ type ∈ (namespaces.node id).listed,
        type ∈ (state.program.namespaces.node id).listed ∨ state.unit.interface = some type) ∧
      publish start = .ok () { state with
        program := ({ state.program with namespaces := namespaces }.add state.unit).2 } := by
  obtain ⟨state, run, published⟩ := forM_publishSequenceable_run (.none imports) named
  cases declared : state.unit.interface with
  | none =>
      refine ⟨state, state.program.namespaces, published, .refl _, fun _ _ listed => .inl listed, ?_⟩
      simp only [publish, Bind.bind, EStateM.bind, get_run, run, modify_run, declared]
  | some type =>
      refine ⟨state, state.program.namespaces.addInterface state.unit.namespaceId type, published,
        NamespaceTree.extends_addInterface _ _ _, ?_, ?_⟩
      · intro id listed isListed
        refine (NamespaceTree.mem_listed_addInterface _ isListed).imp_right ?_
        rintro rfl
        exact declared
      · simp only [publish, Bind.bind, EStateM.bind, get_run, run, modify_run, declared]

end Publish

end Parse

end DriverIdl
