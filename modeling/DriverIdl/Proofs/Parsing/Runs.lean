import DriverIdl.Parsing.SourceFile
import DriverIdl.Proofs.Model.Arena
import DriverIdl.Proofs.Model.Namespace
import DriverIdl.Proofs.Parsing.Names

/-!
# Runs of productions

Two kinds of facts hold of a production.  Some hold of every run, also of one that reports errors or
leaves early: tokens are only taken from the front, diagnostics are only added, units stay, and types
that were there before keep what they are, but for the mark of an imported interface.  `Advances`
collects them.  Others hold of a run without an error, and describe what was built.

`Ensures` states both of a production at a state.  What a clean run of one part ensures is known in
what the next part ensures, but the next part goes on without it.
-/

namespace DriverIdl

namespace ParseState

/-- The types of the program. -/
abbrev types (state : ParseState) : TypeArena := state.program.types

/-- What every production without an error can rely on and keeps. -/
structure Sound (state : ParseState) : Prop where
  spelled : ∀ token ∈ state.tokens, token.WellSpelled
  types : state.types.Sound
  table : TableSound state.types state.unit.table
  units : ∀ unit ∈ state.program.units, TableSound state.types unit.table
  namespaces : state.program.namespaces.WellFormed
  package_inside : state.unit.namespaceId < state.program.namespaces.nodes.size
  package_name : state.program.namespaces.fullName state.unit.namespaceId = state.unit.package

/-- The type is the interface of a unit that the tokens ahead import. -/
def ImportsInterface (state : ParseState) (id : TypeId) : Prop :=
  ∃ name unitId, Announces .importWord name state.tokens ∧
    state.program.find? name = some unitId ∧
    (state.program.units[unitId]?.getD default).interface = some id

/-- What holds between the states before and after any run of a production; `mark` is the number of
types that were there when the file was started. -/
structure Advances (mark : Nat) (before after : ParseState) : Prop where
  tokens : after.tokens <:+ before.tokens
  faults : ∃ found, after.diagnostics = before.diagnostics ++ found ∧
    after.errors = before.errors + found.length
  units : after.program.units = before.program.units
  namespaces : before.program.namespaces.WellFormed →
    before.program.namespaces.Extends after.program.namespaces
  listed : ∀ id, (after.program.namespaces.node id).listed =
    (before.program.namespaces.node id).listed
  inside : mark ≤ before.types.size → mark ≤ after.types.size
  containers : ∀ entry ∈ after.unit.table, entry.1.isComposite = true →
    entry ∈ before.unit.table ∨ mark ≤ entry.2
  nodes : ∀ id < mark, after.types.node id = before.types.node id ∨
    before.ImportsInterface id ∧
      after.types.node id = Parse.markSerializable (before.types.node id)
  path : after.unit.path = before.unit.path
  name : after.unit.name = before.unit.name

/-- The types from `mark` on are those of the file, and the containers that its unit sees are among
them.  The tokens ahead come from a text. -/
structure Since (mark : Nat) (state : ParseState) : Prop where
  inside : mark ≤ state.types.size
  containers : ∀ entry ∈ state.unit.table, entry.1.isComposite = true → mark ≤ entry.2
  spelled : ∀ token ∈ state.tokens, token.WellSpelled

end ParseState

theorem ParseState.Sound.since {state : ParseState} (sound : state.Sound) : state.Since 0 where
  inside := Nat.zero_le _
  containers _ _ _ := Nat.zero_le _
  spelled := sound.spelled

theorem Parse.markSerializable_markSerializable (node : TypeNode) :
    markSerializable (markSerializable node) = markSerializable node := by
  cases node <;> rfl

namespace ParseState

theorem ImportsInterface.of_suffix {before after : ParseState} {id : TypeId}
    (imported : after.ImportsInterface id) (tokens : after.tokens <:+ before.tokens)
    (units : after.program.units = before.program.units) : before.ImportsInterface id := by
  obtain ⟨name, unitId, announced, found, interface⟩ := imported
  refine ⟨name, unitId, announced.of_suffix tokens, ?_, ?_⟩
  · rwa [Program.find?, ← units]
  · rwa [← units]

namespace Advances

variable {mark : Nat} {before middle after : ParseState}

theorem refl (state : ParseState) : Advances mark state state where
  tokens := List.suffix_refl _
  faults := ⟨[], by simp⟩
  units := rfl
  namespaces _ := .refl _
  listed _ := rfl
  inside inside := inside
  containers _ listed _ := .inl listed
  nodes _ _ := .inl rfl
  path := rfl
  name := rfl

theorem trans (first : Advances mark before middle) (second : Advances mark middle after) :
    Advances mark before after where
  tokens := second.tokens.trans first.tokens
  faults := by
    obtain ⟨early, firstDiagnostics, firstErrors⟩ := first.faults
    obtain ⟨late, secondDiagnostics, secondErrors⟩ := second.faults
    refine ⟨early ++ late, ?_, ?_⟩
    · rw [secondDiagnostics, firstDiagnostics, List.append_assoc]
    · rw [secondErrors, firstErrors, List.length_append, Nat.add_assoc]
  units := second.units.trans first.units
  namespaces wellFormed :=
    (first.namespaces wellFormed).trans
      (second.namespaces ((first.namespaces wellFormed).wellFormed wellFormed))
  listed id := (second.listed id).trans (first.listed id)
  inside inside := second.inside (first.inside inside)
  containers entry listed composite := by
    rcases second.containers entry listed composite with earlier | new
    · exact first.containers entry earlier composite
    · exact .inr new
  nodes id below := by
    rcases first.nodes id below with kept | ⟨imported, marked⟩
    · rcases second.nodes id below with keptToo | ⟨imported, marked⟩
      · exact .inl (keptToo.trans kept)
      · exact .inr ⟨imported.of_suffix first.tokens first.units, by rw [marked, kept]⟩
    · refine .inr ⟨imported, ?_⟩
      rcases second.nodes id below with keptToo | ⟨-, markedToo⟩
      · rw [keptToo, marked]
      · rw [markedToo, marked, Parse.markSerializable_markSerializable]
  path := second.path.trans first.path
  name := second.name.trans first.name

theorem since (advances : Advances mark before after) (since : before.Since mark) :
    after.Since mark where
  inside := advances.inside since.inside
  containers entry listed composite := by
    rcases advances.containers entry listed composite with earlier | new
    · exact since.containers entry earlier composite
    · exact new
  spelled token listed := since.spelled token (advances.tokens.subset listed)

theorem errors_le (step : Advances mark before after) : before.errors ≤ after.errors := by
  obtain ⟨found, -, count⟩ := step.faults
  omega

/-- A run without an error had none halfway. -/
theorem clean (step : Advances mark before after) (clean : after.errors = 0) :
    before.errors = 0 := by
  have := step.errors_le
  omega

/-- A step that takes tokens and reports nothing. -/
theorem of_tokens {tokens : List Token} {rounds : Nat} (state : ParseState)
    (suffix : tokens <:+ state.tokens) :
    Advances mark state { state with tokens := tokens, rounds := rounds } where
  tokens := suffix
  faults := ⟨[], by simp⟩
  units := rfl
  namespaces _ := .refl _
  listed _ := rfl
  inside inside := inside
  containers _ listed _ := .inl listed
  nodes _ _ := .inl rfl
  path := rfl
  name := rfl

theorem counted (state : ParseState) : Advances mark state state.counted :=
  of_tokens state (List.suffix_refl _)

/-- A step that changes types from the mark on, the unit and what the file has set aside. -/
theorem of_types (state : ParseState) {types : TypeArena} {unit : CompiledUnit}
    {sequenceables : List (String × CompiledUnit)}
    (inside : mark ≤ state.types.size → mark ≤ types.size)
    (containers : ∀ entry ∈ unit.table, entry.1.isComposite = true →
      entry ∈ state.unit.table ∨ mark ≤ entry.2)
    (nodes : ∀ id < mark, types.node id = state.types.node id)
    (path : unit.path = state.unit.path) (name : unit.name = state.unit.name) :
    Advances mark state
      { state with
        program := { state.program with types := types }
        unit := unit
        sequenceables := sequenceables } where
  tokens := List.suffix_refl _
  faults := ⟨[], by simp⟩
  units := rfl
  namespaces _ := .refl _
  listed _ := rfl
  inside := inside
  containers := containers
  nodes id below := .inl (nodes id below)
  path := path
  name := name

/-- A step that changes the unit only. -/
theorem of_unit (state : ParseState) {unit : CompiledUnit} (table : unit.table = state.unit.table)
    (path : unit.path = state.unit.path) (name : unit.name = state.unit.name) :
    Advances mark state { state with unit := unit } :=
  of_types state id (fun _ listed _ => .inl (table ▸ listed)) (fun _ _ => rfl) path name

end Advances

theorem Sound.counted {state : ParseState} (sound : state.Sound) : state.counted.Sound :=
  { sound with }

/-- Soundness does not look at what a unit declares and imports. -/
theorem Sound.of_unit {state : ParseState} {unit : CompiledUnit} (sound : state.Sound)
    (table : TableSound state.types unit.table)
    (namespaceId : unit.namespaceId = state.unit.namespaceId)
    (package : unit.package = state.unit.package) : Sound { state with unit := unit } :=
  { sound with
    table := table
    package_inside := namespaceId ▸ sound.package_inside
    package_name := by
      simp only [namespaceId, package]
      exact sound.package_name }

end ParseState

namespace Parse

open ParseState

variable {α β σ : Type} {mark : Nat} {known : Prop} {before : ParseState}

/-- Every run of a production from a state advances.  One that ends without an error keeps the state
sound and ensures something of its result, if `known` holds, and one that leaves has reported an
error. -/
def Ensures (mark : Nat) (known : Prop) (before : ParseState) (production : Parse α)
    (post : α → ParseState → Prop) : Prop :=
  before.Since mark →
    match production before with
    | .ok value after =>
      Advances mark before after ∧
        (after.errors = 0 → known → before.Sound → after.Sound ∧ post value after)
    | .error _ after => Advances mark before after ∧ (known → before.Sound → after.errors ≠ 0)

namespace Ensures

theorem ok {production : Parse α} {post : α → ParseState → Prop} {value : α} {after : ParseState}
    (ensures : Ensures mark known before production post)
    (run : production before = .ok value after)
    (since : before.Since mark) :
    Advances mark before after ∧
      (after.errors = 0 → known → before.Sound → after.Sound ∧ post value after) := by
  have result := ensures since
  rwa [run] at result

theorem error {production : Parse α} {post : α → ParseState → Prop} {fault : Resync}
    {after : ParseState} (ensures : Ensures mark known before production post)
    (run : production before = .error fault after) (since : before.Since mark) :
    Advances mark before after ∧ (known → before.Sound → after.errors ≠ 0) := by
  have result := ensures since
  rwa [run] at result

/-- A weaker consequence. -/
theorem imp {production : Parse α} {strong weak : α → ParseState → Prop}
    (ensures : Ensures mark known before production strong)
    (weaken : ∀ value after, known → after.Sound → strong value after → weak value after) :
    Ensures mark known before production weak := by
  intro since
  have result := ensures since
  split at result
  · refine ⟨result.1, fun clean holds sound => ?_⟩
    obtain ⟨soundAfter, strong⟩ := result.2 clean holds sound
    exact ⟨soundAfter, weaken _ _ holds soundAfter strong⟩
  · exact result

/-- What every run gives, a clean one ensures. -/
theorem ofRun {production : Parse α} {post : α → ParseState → Prop}
    (ensures : Ensures mark known before production fun _ _ => True)
    (gives : ∀ {value : α} {after : ParseState}, production before = .ok value after →
      post value after) :
    Ensures mark known before production post := by
  intro since
  have result := ensures since
  split at result
  · rename_i value after run
    exact ⟨result.1, fun clean holds sound => ⟨(result.2 clean holds sound).1, gives run⟩⟩
  · exact result

/-- A stronger assumption. -/
theorem under {production : Parse α} {post : α → ParseState → Prop} (assumed : Prop)
    (ensures : Ensures mark assumed before production post) (assume : known → assumed) :
    Ensures mark known before production post := by
  intro since
  have result := ensures since
  split at result
  · exact ⟨result.1, fun clean holds sound => result.2 clean (assume holds) sound⟩
  · exact ⟨result.1, fun holds sound => result.2 (assume holds) sound⟩

/-- What follows may look back at a sound state. -/
theorem fromSound {production : Parse α} {post : α → ParseState → Prop}
    (ensures : Ensures mark known before production post) :
    Ensures mark known before production fun value after => before.Sound ∧ post value after := by
  intro since
  have result := ensures since
  split at result
  · refine ⟨result.1, fun clean holds sound => ?_⟩
    obtain ⟨soundAfter, ensured⟩ := result.2 clean holds sound
    exact ⟨soundAfter, sound, ensured⟩
  · exact result

/-- What follows may look back at a run without an error. -/
theorem toClean {production : Parse α} {post : α → ParseState → Prop}
    (ensures : Ensures mark known before production post) :
    Ensures mark known before production fun value after => after.errors = 0 ∧ post value after := by
  intro since
  have result := ensures since
  split at result
  · refine ⟨result.1, fun clean holds sound => ?_⟩
    obtain ⟨soundAfter, ensured⟩ := result.2 clean holds sound
    exact ⟨soundAfter, clean, ensured⟩
  · exact result

theorem pure {post : α → ParseState → Prop} {value : α}
    (holds : known → before.Sound → post value before) :
    Ensures mark known before (Pure.pure value) post :=
  fun _ => ⟨.refl before, fun _ assumed sound => ⟨sound, holds assumed sound⟩⟩

/-- Sequence: the second part knows what a clean run of the first ensures. -/
theorem bind {first : Parse α} {second : α → Parse β} {middle : α → ParseState → Prop}
    {post : β → ParseState → Prop} (starts : Ensures mark known before first middle)
    (goesOn : ∀ value state, first before = .ok value state → Advances mark before state →
      Ensures mark (known ∧ middle value state) state (second value) post) :
    Ensures mark known before (first >>= second) post := by
  intro since
  have opened : (first >>= second) before = EStateM.bind first second before := rfl
  rw [opened, EStateM.bind]
  cases firstRun : first before with
  | error fault state => exact starts.error firstRun since
  | ok value state =>
      obtain ⟨advanced, firstEnsures⟩ := starts.ok firstRun since
      have rest := goesOn value state firstRun advanced (advanced.since since)
      simp only
      split at rest
      · rename_i result after secondRun
        refine ⟨advanced.trans rest.1, fun clean holds sound => ?_⟩
        obtain ⟨soundBetween, middle⟩ := firstEnsures (rest.1.clean clean) holds sound
        exact rest.2 clean ⟨holds, middle⟩ soundBetween
      · rename_i fault after secondRun
        refine ⟨advanced.trans rest.1, fun holds sound clean => ?_⟩
        obtain ⟨soundBetween, middle⟩ := firstEnsures (rest.1.clean clean) holds sound
        exact rest.2 ⟨holds, middle⟩ soundBetween clean

theorem map {production : Parse α} {post : α → ParseState → Prop} (change : α → β)
    (ensures : Ensures mark known before production post) :
    Ensures mark known before (change <$> production)
      fun result after => ∃ value, result = change value ∧ post value after := by
  apply bind ensures
  intro value state _ _
  exact pure fun ⟨_, holds⟩ _ => ⟨value, rfl, holds⟩

/-- Sequence behind a part whose run is known. -/
theorem bindRun {first : Parse α} {second : α → Parse β} {post : β → ParseState → Prop} {value : α}
    {state : ParseState} (run : first before = .ok value state)
    (advances : before.Since mark → Advances mark before state)
    (keeps : known → before.Sound → state.Sound)
    (goesOn : Ensures mark known state (second value) post) :
    Ensures mark known before (first >>= second) post := by
  have starts : Ensures mark known before first fun found after => found = value ∧ after = state := by
    intro since
    rw [run]
    exact ⟨advances since, fun _ assumed sound => ⟨keeps assumed sound, rfl, rfl⟩⟩
  apply bind starts
  intro found after foundRun _
  obtain ⟨rfl, rfl⟩ : value = found ∧ state = after := by simpa [run] using foundRun
  exact goesOn.under _ And.left

/-- Sequence behind a part that changes nothing, whatever it answers. -/
theorem bindOk {first : Parse α} {second : α → Parse β} {post : β → ParseState → Prop} {value : α}
    (run : first before = .ok value before)
    (goesOn : Ensures mark known before (second value) post) :
    Ensures mark known before (first >>= second) post :=
  bindRun run (fun _ => .refl before) (fun _ sound => sound) goesOn

/-- The types from the mark on may be assumed to be those of the file. -/
theorem assumeSince {production : Parse α} {post : α → ParseState → Prop}
    (ensures : before.Since mark → Ensures mark known before production post) :
    Ensures mark known before production post :=
  fun since => ensures since since

/-- A change of the state. -/
theorem modify {change : ParseState → ParseState}
    (advances : before.Since mark → Advances mark before (change before))
    (keeps : known → before.Sound → (change before).Sound) :
    Ensures mark known before (modify change) fun _ after => after = change before :=
  fun since => ⟨advances since, fun _ assumed sound => ⟨keeps assumed sound, rfl⟩⟩

/-- The mark of an error. -/
theorem report (place : Position) (fault : SourceFault) :
    Ensures mark known before (report place fault) fun _ _ => False := by
  intro _
  refine ⟨?_, fun clean _ _ => absurd clean (Nat.succ_ne_zero _)⟩
  exact
    { tokens := List.suffix_refl _
      faults := ⟨[⟨before.unit.path, place, fault⟩], rfl, rfl⟩
      units := rfl
      namespaces := fun _ => .refl _
      listed := fun _ => rfl
      inside := fun inside => inside
      containers := fun _ listed _ => .inl listed
      nodes := fun _ _ => .inl rfl
      path := rfl
      name := rfl }

theorem fail (place : Position) (fault : SourceFault) {post : α → ParseState → Prop} :
    Ensures mark known before (fail place fault) post := by
  intro since
  have reports : Ensures mark known before (Parse.report place fault) fun _ _ => False :=
    report place fault
  obtain ⟨advanced, -⟩ := reports.ok rfl since
  exact ⟨advanced, fun _ _ => Nat.succ_ne_zero _⟩

theorem ite {condition : Prop} [Decidable condition] {first other : Parse α}
    {post : α → ParseState → Prop} (holds : condition → Ensures mark known before first post)
    (fails : ¬condition → Ensures mark known before other post) :
    Ensures mark known before (if condition then first else other) post := by
  split
  · exact holds ‹_›
  · exact fails ‹_›

/-- What follows an error may be anything. -/
theorem bindReport {place : Position} {fault : SourceFault} {rest : PUnit → Parse α}
    {post : α → ParseState → Prop} (goesOn : ∀ state, Ensures mark False state (rest ⟨⟩) post) :
    Ensures mark known before (Parse.report place fault >>= rest) post := by
  apply bind (report place fault)
  intro _ state _ _
  exact (goesOn state).under _ And.right

/-- A result that is never given without an error. -/
theorem never {value : α} {post : α → ParseState → Prop} :
    Ensures mark False before (Pure.pure value) post :=
  pure False.elim

/-- An error that is reported on a condition: a clean run goes on from the same state. -/
theorem reportIf {condition : Prop} [Decidable condition] {place : Position} {fault : SourceFault}
    {rest : PUnit → Parse α} {post : α → ParseState → Prop}
    (goesOn : ∀ state, Advances mark before state →
      Ensures mark (known ∧ state = before ∧ ¬condition) state (rest ⟨⟩) post) :
    Ensures mark known before
      (if condition then Parse.report place fault >>= rest else rest ⟨⟩) post := by
  split
  · apply bind (report place fault)
    intro _ state _ advanced
    exact (goesOn state advanced).under _ fun ⟨_, impossible⟩ => impossible.elim
  · rename_i holds
    exact (goesOn before (.refl before)).under _ fun assumed => ⟨assumed, rfl, holds⟩

/-- An error that is reported on a condition, with nothing behind it. -/
theorem reportWhen {condition : Prop} [Decidable condition] {place : Position}
    {fault : SourceFault} :
    Ensures mark known before (if condition then Parse.report place fault else Pure.pure ⟨⟩)
      fun _ after => after = before ∧ ¬condition := by
  split
  · exact (report place fault).imp fun _ _ _ _ impossible => impossible.elim
  · rename_i holds
    exact pure fun _ _ => ⟨rfl, holds⟩

/-- Nothing follows an error that leaves. -/
theorem bindFail {place : Position} {fault : SourceFault} {rest : β → Parse α}
    {post : α → ParseState → Prop} : Ensures mark known before (Parse.fail place fault >>= rest) post := by
  have fails : Ensures mark known before (Parse.fail place fault : Parse β) fun _ _ => False :=
    fail place fault
  apply fails.bind
  intro _ _ impossible
  cases impossible

/-- An error that a condition leaves with. -/
theorem failIf {condition : Prop} [Decidable condition] {place : Position} {fault : SourceFault}
    {rest : β → Parse α} {otherwise : Parse α} {post : α → ParseState → Prop}
    (goesOn : Ensures mark (known ∧ ¬condition) before otherwise post) :
    Ensures mark known before (if condition then Parse.fail place fault >>= rest else otherwise)
      post := by
  split
  · exact bindFail
  · rename_i holds
    exact goesOn.under _ fun assumed => ⟨assumed, holds⟩

/-- A production whose failure is caught: without an error it did not fail. -/
theorem attempt {production : Parse α} {post : α → ParseState → Prop}
    (ensures : Ensures mark known before production post) :
    Ensures mark known before (attempt production)
      fun result after => ∃ value, result = some value ∧ post value after := by
  intro since
  simp only [Parse.attempt]
  cases run : production before with
  | ok value after =>
      obtain ⟨advanced, holds⟩ := ensures.ok run since
      refine ⟨advanced, fun clean assumed sound => ?_⟩
      obtain ⟨soundAfter, post⟩ := holds clean assumed sound
      exact ⟨soundAfter, value, rfl, post⟩
  | error fault after =>
      obtain ⟨advanced, reported⟩ := ensures.error run since
      exact ⟨advanced, fun clean assumed sound => absurd clean (reported assumed sound)⟩

section Loop

variable {step : σ → Parse (σ ⊕ α)} {post : α → ParseState → Prop}

/-- What a round of a loop must ensure: it keeps an invariant and takes a token, or answers. -/
def Round (invariant : σ → ParseState → Prop) (post : α → ParseState → Prop) (state : ParseState)
    (result : σ ⊕ α) (after : ParseState) : Prop :=
  match result with
  | .inl next => invariant next after ∧ after.tokens.length < state.tokens.length
  | .inr value => post value after

/-- The rounds of a loop, where `assumed` is what makes the whole loop sound.  A clean round takes a
token, so a clean loop never runs out of rounds. -/
theorem loopWithin (assumed : Prop) (invariant : σ → ParseState → Prop)
    (round : ∀ current state, Advances mark before state →
      Ensures mark (known ∧ invariant current state) state (step current)
        (Round invariant post state))
    (rounds : Nat) (current : σ) (state : ParseState) (since : state.Since mark)
    (reached : Advances mark before state)
    (holds : state.errors = 0 → assumed →
      state.Sound ∧ (known ∧ invariant current state) ∧ state.tokens.length < rounds) :
    match loopWithin step rounds current state with
    | .ok value after =>
      Advances mark state after ∧ (after.errors = 0 → assumed → after.Sound ∧ post value after)
    | .error _ after => Advances mark state after ∧ (assumed → after.errors ≠ 0) := by
  induction rounds generalizing current state with
  | zero =>
      refine ⟨.refl state, fun sound clean => ?_⟩
      obtain ⟨-, -, impossible⟩ := holds clean sound
      exact absurd impossible (Nat.not_lt_zero _)
  | succ rounds ih =>
      simp only [Parse.loopWithin, Bind.bind, EStateM.bind]
      cases run : step current state with
      | error fault after =>
          obtain ⟨advanced, reported⟩ := (round current state reached).error run since
          refine ⟨advanced, fun sound clean => ?_⟩
          obtain ⟨soundHere, invariantHere, -⟩ := holds (advanced.clean clean) sound
          exact reported invariantHere soundHere clean
      | ok result middle =>
          obtain ⟨advanced, ensured⟩ := (round current state reached).ok run since
          cases result with
          | inr value =>
              refine ⟨advanced, fun clean sound => ?_⟩
              obtain ⟨soundHere, invariantHere, -⟩ := holds (advanced.clean clean) sound
              exact ensured clean invariantHere soundHere
          | inl next =>
              have goesOn := ih next middle (advanced.since since) (reached.trans advanced) (by
                intro clean sound
                obtain ⟨soundHere, invariantHere, fewer⟩ := holds (advanced.clean clean) sound
                obtain ⟨soundAfter, invariantAfter, shorter⟩ := ensured clean invariantHere soundHere
                exact ⟨soundAfter, ⟨invariantHere.1, invariantAfter⟩, by omega⟩)
              simp only
              split at goesOn
              · exact ⟨advanced.trans goesOn.1, goesOn.2⟩
              · exact ⟨advanced.trans goesOn.1, goesOn.2⟩

/-- Counting a round changes nothing that a production looks at. -/
theorem counted {production : Parse α} {post : α → ParseState → Prop}
    (ensures : Ensures mark known before.counted production post) :
    Ensures mark known before (fun state => production state.counted) post := by
  intro since
  have advanced : Advances mark before before.counted := .counted before
  have result := ensures (advanced.since since)
  simp only
  split at result
  · exact ⟨advanced.trans result.1, fun clean holds sound => result.2 clean holds sound.counted⟩
  · exact ⟨advanced.trans result.1, fun holds sound => result.2 holds sound.counted⟩

/-- A loop ensures what its last round does, if every clean round before takes a token. -/
theorem loop (invariant : σ → ParseState → Prop) {start : σ}
    (holds : known → before.Sound → invariant start before)
    (counts : ∀ current state, invariant current state → invariant current state.counted)
    (round : ∀ current state, Advances mark before state →
      Ensures mark (known ∧ invariant current state) state (step current)
        (Round invariant post state)) :
    Ensures mark known before (loop step start) post := by
  intro since
  have rounds := @loopWithin α σ mark known before (Parse.round step) post (known ∧ before.Sound)
    invariant (fun current state reached =>
      (round current state.counted (reached.trans (.counted state))).counted.under _
        fun ⟨assumed, invariantHere⟩ => ⟨assumed, counts current state invariantHere⟩)
    (before.tokens.length + 1) start before since (.refl before)
    fun _ ⟨assumed, sound⟩ => ⟨sound, ⟨assumed, holds assumed sound⟩, Nat.lt_succ_self _⟩
  have opened : Parse.loop step start before =
      Parse.loopWithin (Parse.round step) (before.tokens.length + 1) start before := rfl
  rw [opened]
  split at rounds
  · exact ⟨rounds.1, fun clean assumed sound => rounds.2 clean ⟨assumed, sound⟩⟩
  · exact ⟨rounds.1, fun assumed sound => rounds.2 ⟨assumed, sound⟩⟩

end Loop

end Ensures

section Tokens

/-- Nothing but the tokens ahead differs, and the rounds that were counted. -/
def SameButTokens (before after : ParseState) : Prop :=
  after = { before with tokens := after.tokens, rounds := after.rounds }

theorem SameButTokens.trans {middle after : ParseState} (first : SameButTokens before middle)
    (second : SameButTokens middle after) : SameButTokens before after := by
  rw [SameButTokens] at first second ⊢
  rw [second, first]

theorem SameButTokens.types_eq {after : ParseState} (same : SameButTokens before after) :
    after.types = before.types := by
  rw [SameButTokens] at same
  rw [same]

theorem SameButTokens.unit_eq {after : ParseState} (same : SameButTokens before after) :
    after.unit = before.unit := by
  rw [SameButTokens] at same
  rw [same]

/-- The first token is taken and nothing else changes. -/
structure Takes (before : ParseState) (token : Token) (after : ParseState) : Prop where
  tokens : before.tokens = token :: after.tokens
  same : SameButTokens before after

theorem Takes.length_lt {token : Token} {after : ParseState} (takes : Takes before token after) :
    after.tokens.length < before.tokens.length := by
  rw [takes.tokens]
  exact Nat.lt_succ_self _

theorem sound_of_tokens {tokens : List Token} {rounds : Nat} (sound : before.Sound)
    (suffix : tokens <:+ before.tokens) :
    Sound { before with tokens := tokens, rounds := rounds } :=
  { sound with spelled := fun token listed => sound.spelled token (suffix.subset listed) }

/-- The token ahead in a state. -/
def ahead (state : ParseState) : Token := state.tokens.headD ⟨.eof, "", state.finish⟩

theorem get_run (state : ParseState) : (get : Parse ParseState) state = .ok state state := rfl

theorem types_run (state : ParseState) : types state = .ok state.types state := rfl

theorem modify_run (change : ParseState → ParseState) (state : ParseState) :
    (modify change : Parse Unit) state = .ok () (change state) := rfl

theorem peek_run (state : ParseState) : peek state = .ok (ahead state) state := rfl

theorem next_run (state : ParseState) :
    next state = .ok (ahead state) { state with tokens := state.tokens.tail } := rfl

theorem takes_ahead (notEnd : (ahead before).kind ≠ .eof) :
    Takes before (ahead before) { before with tokens := before.tokens.tail } := by
  cases found : before.tokens with
  | nil => simp [ahead, found] at notEnd
  | cons token rest => exact ⟨by simp [ahead, found], rfl⟩

theorem Ensures.next : Ensures mark known before next
    fun token after => token = ahead before ∧ (token.kind ≠ .eof → Takes before token after) :=
  fun _ => ⟨.of_tokens before (List.tail_suffix _),
    fun _ _ sound => ⟨sound_of_tokens sound (List.tail_suffix _), rfl, takes_ahead⟩⟩

theorem Ensures.unexpected {token : Token} {expected : String} {post : α → ParseState → Prop} :
    Ensures mark known before (unexpected token expected) post :=
  .fail _ _

theorem bind_eq_ok {first : Parse α} {second : α → Parse β} {result : β} {after : ParseState} :
    (first >>= second) before = .ok result after ↔
      ∃ value state, first before = .ok value state ∧ second value state = .ok result after := by
  have opened : (first >>= second) before = EStateM.bind first second before := rfl
  rw [opened, EStateM.bind]
  cases first before <;> simp

/-- What a loop keeps holds at its last round. -/
theorem loop_ok {step : σ → Parse (σ ⊕ α)} {start : σ} {result : α} {after : ParseState}
    (invariant : σ → ParseState → Prop) (post : α → ParseState → Prop)
    (holds : invariant start before)
    (counts : ∀ current state, invariant current state → invariant current state.counted)
    (keeps : ∀ current state next later, invariant current state →
      step current state = .ok (.inl next) later → invariant next later)
    (ends : ∀ current state value later, invariant current state →
      step current state = .ok (.inr value) later → post value later)
    (run : loop step start before = .ok result after) : post result after := by
  have rounds : ∀ count current state, invariant current state →
      loopWithin (round step) count current state = .ok result after → post result after := by
    intro count
    induction count with
    | zero =>
        intro _ _ _ impossible
        cases impossible
    | succ count ih =>
        intro current state invariantHere run
        obtain ⟨answer, later, stepped, rest⟩ := bind_eq_ok.mp run
        cases answer with
        | inl next =>
            exact ih next later (keeps _ _ _ _ (counts _ _ invariantHere) stepped) rest
        | inr value =>
            cases rest
            exact ends _ _ _ _ (counts _ _ invariantHere) stepped
  exact rounds _ _ _ holds run

theorem expect_ok {kind : TokenKind} {expected : String} {token : Token} {after : ParseState}
    (notEnd : kind ≠ .eof) (run : expect kind expected before = .ok token after) :
    Takes before token after ∧ token.kind = kind := by
  simp only [expect, Bind.bind, EStateM.bind, peek_run] at run
  split at run
  · rename_i same
    cases run
    exact ⟨takes_ahead (same ▸ notEnd), same⟩
  · cases run

theorem eat_ok {kind : TokenKind} {taken : Bool} {after : ParseState} (notEnd : kind ≠ .eof)
    (run : eat kind before = .ok taken after) :
    (taken = true ∧ ∃ token, Takes before token after ∧ token.kind = kind) ∨
      (taken = false ∧ after = before ∧ (ahead before).kind ≠ kind) := by
  simp only [eat, Bind.bind, EStateM.bind, peek_run] at run
  split at run
  · rename_i same
    cases run
    exact .inl ⟨rfl, _, takes_ahead (same ▸ notEnd), same⟩
  · rename_i different
    cases run
    exact .inr ⟨rfl, rfl, different⟩

theorem Ensures.expect {kind : TokenKind} {expected : String} (notEnd : kind ≠ .eof) :
    Ensures mark known before (expect kind expected)
      fun token after => Takes before token after ∧ token.kind = kind := by
  apply ofRun _ (expect_ok notEnd)
  apply bindOk (peek_run before)
  split
  · exact next.imp fun _ _ _ _ _ => trivial
  · exact unexpected

theorem Ensures.eat {kind : TokenKind} (notEnd : kind ≠ .eof) :
    Ensures mark known before (eat kind) fun taken after =>
      (taken = true ∧ ∃ token, Takes before token after ∧ token.kind = kind) ∨
        (taken = false ∧ after = before ∧ (ahead before).kind ≠ kind) := by
  apply ofRun _ (eat_ok notEnd)
  apply bindOk (peek_run before)
  split
  · apply bind next
    intro _ _ _ _
    exact pure fun _ _ => trivial
  · exact pure fun _ _ => trivial

/-- A name is read as the header reads it. -/
theorem dottedTail_ok {first name : String} {after : ParseState}
    (run : dottedTail first before = .ok name after) :
    Header.dottedTail first before.tokens = (some name, after.tokens) ∧
      SameButTokens before after := by
  apply loop_ok
    (fun name state => Header.dottedTail first before.tokens = Header.dottedTail name state.tokens ∧
      SameButTokens before state)
    (fun name state => Header.dottedTail first before.tokens = (some name, state.tokens) ∧
      SameButTokens before state)
    ⟨rfl, rfl⟩ _ _ _ run
  · rintro current state ⟨reads, same⟩
    exact ⟨reads, same.trans rfl⟩
  · rintro current state longer later ⟨reads, same⟩ step
    obtain ⟨isTaken, dotted, eaten, rest⟩ := bind_eq_ok.mp step
    rcases eat_ok (by decide) eaten with ⟨rfl, dot, dotTaken, isDot⟩ | ⟨rfl, -⟩
    · obtain ⟨segment, named, segmentRun, last⟩ := bind_eq_ok.mp rest
      obtain ⟨segmentTaken, isSegment⟩ := expect_ok (by decide) segmentRun
      cases last
      refine ⟨?_, (same.trans dotTaken.same).trans segmentTaken.same⟩
      obtain ⟨dotKind, dotText, dotPlace⟩ := dot
      obtain ⟨segmentKind, segmentText, segmentPlace⟩ := segment
      subst isDot isSegment
      rw [reads, dotTaken.tokens, segmentTaken.tokens, Header.dottedTail]
    · cases rest
  · rintro current state name later ⟨reads, same⟩ step
    obtain ⟨isTaken, dotted, eaten, rest⟩ := bind_eq_ok.mp step
    rcases eat_ok (by decide) eaten with ⟨rfl, -⟩ | ⟨rfl, rfl, notDot⟩
    · obtain ⟨_, _, _, last⟩ := bind_eq_ok.mp rest
      cases last
    · cases rest
      refine ⟨?_, same⟩
      rw [reads]
      cases found : later.tokens with
      | nil => simp [Header.dottedTail]
      | cons token rest =>
          have kind : token.kind ≠ .dot := by simpa [ahead, found] using notDot
          rw [Header.dottedTail]
          · rintro text place segment place' others ⟨rfl, -⟩
            exact kind rfl
          · rintro text place others ⟨rfl, -⟩
            exact kind rfl

theorem dottedName_ok {expected : String} {result : String × Position} {after : ParseState}
    (run : dottedName expected before = .ok result after) :
    Header.dottedName before.tokens = (some result.1, after.tokens) ∧
      SameButTokens before after := by
  obtain ⟨first, named, firstRun, rest⟩ := bind_eq_ok.mp run
  obtain ⟨name, state, tailRun, last⟩ := bind_eq_ok.mp rest
  obtain ⟨taken, isName⟩ := expect_ok (by decide) firstRun
  obtain ⟨reads, same⟩ := dottedTail_ok tailRun
  cases last
  refine ⟨?_, taken.same.trans same⟩
  obtain ⟨kind, text, place⟩ := first
  subst isName
  rw [taken.tokens, Header.dottedName, reads]

theorem Ensures.dottedTail (first : String) : Ensures mark known before (dottedTail first)
    fun name after =>
      Header.dottedTail first before.tokens = (some name, after.tokens) ∧
        SameButTokens before after := by
  apply ofRun _ dottedTail_ok
  apply loop fun _ _ => True
  · exact fun _ _ => trivial
  · exact fun _ _ _ => trivial
  · intro name state _
    apply bind (eat (by decide))
    intro taken dotted _ _
    split
    · rename_i isTaken
      apply bind (expect (by decide))
      intro segment named _ _
      apply pure
      rintro ⟨⟨-, ⟨-, dot, dotTaken, -⟩ | ⟨notTaken, -⟩⟩, segmentTaken, -⟩ -
      · exact ⟨trivial, Nat.lt_trans segmentTaken.length_lt dotTaken.length_lt⟩
      · rw [isTaken] at notTaken
        cases notTaken
    · exact pure fun _ _ => trivial

theorem Ensures.dottedName (expected : String) :
    Ensures mark known before (dottedName expected) fun result after =>
      Header.dottedName before.tokens = (some result.1, after.tokens) ∧
        SameButTokens before after := by
  apply ofRun _ dottedName_ok
  apply bind (expect (by decide))
  intro first named _ _
  apply bind (dottedTail first.text)
  intro name state _ _
  exact pure fun _ _ => trivial

end Tokens

end Parse

end DriverIdl
