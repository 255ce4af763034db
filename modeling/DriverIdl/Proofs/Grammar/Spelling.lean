import DriverIdl.Proofs.Grammar.Basic
import DriverIdl.Proofs.Parsing.HeaderStatements

/-!
# What a run without a fault takes

A production that leaves has reported a fault, and one that reports none has taken tokens that its
part of the grammar derives: `Spells`.  Nothing is assumed of the program that a file is parsed
into.  The texts of the parts of a production stand one behind the other, and every round of a loop
takes a token, so a loop never runs out of rounds unless a fault was reported in it.
-/

namespace DriverIdl

namespace Parse

open Computability Grammar ParseState

variable {α β σ : Type} {before : ParseState}

/-- A run never takes a fault back.  One that ends without a new fault has taken tokens of which,
with the result, something holds, and one that leaves has reported a fault. -/
def Spells (before : ParseState) (production : Parse α)
    (post : α → ParseState → List TokenKind → Prop) : Prop :=
  match production before with
  | .ok value after =>
    before.errors ≤ after.errors ∧
      (after.errors = before.errors → ∃ taken, before.tokens = taken ++ after.tokens ∧
        post value after (taken.map Token.kind))
  | .error _ after => before.errors < after.errors

/-- The tokens that a run without a fault takes are derived by a part of the grammar. -/
abbrev Derives (before : ParseState) (production : Parse α) (part : TokenLanguage) : Prop :=
  Spells before production fun _ _ text => text ∈ part

namespace Spells

variable {production : Parse α} {post : α → ParseState → List TokenKind → Prop}

theorem ok {value : α} {after : ParseState} (spells : Spells before production post)
    (run : production before = .ok value after) :
    before.errors ≤ after.errors ∧
      (after.errors = before.errors → ∃ taken, before.tokens = taken ++ after.tokens ∧
        post value after (taken.map Token.kind)) := by
  unfold Spells at spells
  rwa [run] at spells

theorem error {fault : Resync} {after : ParseState} (spells : Spells before production post)
    (run : production before = .error fault after) : before.errors < after.errors := by
  unfold Spells at spells
  rwa [run] at spells

/-- A weaker consequence, for which the run may be looked at. -/
theorem imp {weak : α → ParseState → List TokenKind → Prop} (spells : Spells before production post)
    (weaken : ∀ value after text, production before = .ok value after →
      after.errors = before.errors → post value after text → weak value after text) :
    Spells before production weak := by
  unfold Spells
  cases run : production before with
  | error fault after => exact spells.error run
  | ok value after =>
      obtain ⟨grown, ensured⟩ := spells.ok run
      refine ⟨grown, fun clean => ?_⟩
      obtain ⟨taken, split, holds⟩ := ensured clean
      exact ⟨taken, split, weaken _ _ _ run clean holds⟩

theorem pure {value : α} (holds : post value before []) :
    Spells before (Pure.pure value) post :=
  ⟨Nat.le_refl _, fun _ => ⟨[], rfl, holds⟩⟩

theorem bind {first : Parse α} {second : α → Parse β}
    {middle : α → ParseState → List TokenKind → Prop}
    {post : β → ParseState → List TokenKind → Prop} (starts : Spells before first middle)
    (goesOn : ∀ value state, first before = .ok value state →
      Spells state (second value) fun result after more =>
        ∀ text, middle value state text → post result after (text ++ more)) :
    Spells before (first >>= second) post := by
  have opened : (first >>= second) before = EStateM.bind first second before := rfl
  unfold Spells
  rw [opened, EStateM.bind]
  cases firstRun : first before with
  | error fault state => exact starts.error firstRun
  | ok value state =>
      obtain ⟨grown, firstTakes⟩ := starts.ok firstRun
      have rest := goesOn value state firstRun
      simp only
      cases secondRun : second value state with
      | error fault after => exact Nat.lt_of_le_of_lt grown (rest.error secondRun)
      | ok result after =>
          obtain ⟨grownToo, secondTakes⟩ := rest.ok secondRun
          refine ⟨Nat.le_trans grown grownToo, fun clean => ?_⟩
          -- Without a fault in the whole there is none in either part.
          obtain ⟨early, earlySplit, middleHolds⟩ := firstTakes (by omega)
          obtain ⟨late, lateSplit, holds⟩ := secondTakes (by omega)
          refine ⟨early ++ late, by rw [earlySplit, lateSplit, List.append_assoc], ?_⟩
          rw [List.map_append]
          exact holds _ middleHolds

theorem bindOk {first : Parse α} {second : α → Parse β}
    {post : β → ParseState → List TokenKind → Prop} {value : α}
    (run : first before = .ok value before) (goesOn : Spells before (second value) post) :
    Spells before (first >>= second) post := by
  have starts : Spells before first fun found after text =>
      found = value ∧ after = before ∧ text = [] := by
    unfold Spells
    rw [run]
    exact ⟨Nat.le_refl _, fun _ => ⟨[], rfl, rfl, rfl, rfl⟩⟩
  apply bind starts
  intro found state foundRun
  obtain ⟨rfl, rfl⟩ : value = found ∧ before = state := by simpa [run] using foundRun
  apply goesOn.imp
  rintro result after more - - holds text ⟨-, -, rfl⟩
  exact holds

theorem map {change : α → β} {post : β → ParseState → List TokenKind → Prop}
    (spells : Spells before production fun value after text => post (change value) after text) :
    Spells before (change <$> production) post := by
  apply bind spells
  intro value state _
  apply pure
  intro text holds
  rwa [List.append_nil]

/-- A change of the state that neither takes tokens nor reports. -/
theorem modify {change : ParseState → ParseState} (tokens : (change before).tokens = before.tokens)
    (errors : (change before).errors = before.errors) :
    Spells before (modify change) fun _ after text => after = change before ∧ text = [] :=
  ⟨Nat.le_of_eq errors.symm, fun _ => ⟨[], tokens.symm, rfl, rfl⟩⟩

/-- A production that does nothing but report. -/
theorem ofReport {production : Parse Unit} {post : Unit → ParseState → List TokenKind → Prop}
    {place : Position} {fault : SourceFault}
    (run : production before = Parse.report place fault before) : Spells before production post := by
  unfold Spells
  rw [run]
  exact ⟨Nat.le_succ _, fun impossible => absurd impossible (Nat.succ_ne_self _)⟩

theorem report {place : Position} {fault : SourceFault}
    {post : Unit → ParseState → List TokenKind → Prop} : Spells before (report place fault) post :=
  ofReport rfl

theorem fail {place : Position} {fault : SourceFault} : Spells before (fail place fault) post :=
  Nat.lt_succ_self _

theorem ite {condition : Prop} [Decidable condition] {other : Parse α}
    (holds : condition → Spells before production post)
    (fails : ¬condition → Spells before other post) :
    Spells before (if condition then production else other) post := by
  split
  · exact holds ‹_›
  · exact fails ‹_›

theorem bindIf {condition : Prop} [Decidable condition] {first other : Parse α}
    {second : α → Parse β} {middle : α → ParseState → List TokenKind → Prop}
    {post : β → ParseState → List TokenKind → Prop}
    (holds : condition → Spells before first middle)
    (fails : ¬condition → Spells before other middle)
    (goesOn : ∀ value state, Spells state (second value) fun result after more =>
      ∀ text, middle value state text → post result after (text ++ more)) :
    Spells before (if condition then first >>= second else other >>= second) post := by
  split
  · exact bind (holds ‹_›) fun value state _ => goesOn value state
  · exact bind (fails ‹_›) fun value state _ => goesOn value state

/-- Nothing needs to hold behind a fault. -/
theorem bindReport {place : Position} {fault : SourceFault} {rest : PUnit → Parse α}
    (goesOn : ∀ state, Spells state (rest ⟨⟩) fun _ _ _ => True) :
    Spells before (Parse.report place fault >>= rest) post := by
  have reports : Spells before (Parse.report place fault) fun _ _ _ => False := report
  apply bind reports
  intro _ state _
  exact (goesOn state).imp fun _ _ _ _ _ _ _ impossible => impossible.elim

/-- A fault that is reported on a condition: a clean run goes on from the same state. -/
theorem reportIf {condition : Prop} [Decidable condition] {place : Position} {fault : SourceFault}
    {rest : PUnit → Parse α}
    (goesOn : ∀ state, Spells state (rest ⟨⟩) fun value after text =>
      state = before → ¬condition → post value after text) :
    Spells before (if condition then Parse.report place fault >>= rest else rest ⟨⟩) post := by
  split
  · exact bindReport fun state => (goesOn state).imp fun _ _ _ _ _ _ => trivial
  · rename_i holds
    exact (goesOn before).imp fun _ _ _ _ _ ensured => ensured rfl holds

/-- A fault that is reported on a condition, with nothing behind it. -/
theorem reportWhen {condition : Prop} [Decidable condition] {place : Position}
    {fault : SourceFault} :
    Spells before (if condition then Parse.report place fault else Pure.pure ⟨⟩)
      fun _ after text => after = before ∧ text = [] := by
  split
  · exact report
  · exact pure ⟨rfl, rfl⟩

theorem bindFail {place : Position} {fault : SourceFault} {rest : β → Parse α} :
    Spells before (Parse.fail place fault >>= rest) post :=
  Nat.lt_succ_self _

theorem failIf {condition : Prop} [Decidable condition] {place : Position} {fault : SourceFault}
    {rest : β → Parse α} (goesOn : Spells before production post) :
    Spells before (if condition then Parse.fail place fault >>= rest else production) post := by
  split
  · exact bindFail
  · exact goesOn

/-- A production whose failure is caught: without a fault it did not fail. -/
theorem attempt (spells : Spells before production post) :
    Spells before (attempt production) fun result after text =>
      ∃ value, result = some value ∧ post value after text := by
  unfold Spells
  simp only [Parse.attempt]
  cases run : production before with
  | ok value after =>
      obtain ⟨grown, ensured⟩ := spells.ok run
      refine ⟨grown, fun clean => ?_⟩
      obtain ⟨taken, split, holds⟩ := ensured clean
      exact ⟨taken, split, value, rfl, holds⟩
  | error fault after =>
      have grown := spells.error run
      exact ⟨Nat.le_of_lt grown, fun clean => absurd clean (Nat.ne_of_gt grown)⟩

/-- Counting a round spells nothing. -/
theorem counted (spells : Spells before.counted production post) :
    Spells before (fun state => production state.counted) post :=
  spells

section Loop

variable {step : σ → Parse (σ ⊕ α)}

/-- What a round of a loop must spell, behind what was read before it. -/
def Round (invariant : σ → ParseState → List TokenKind → Prop)
    (post : α → ParseState → List TokenKind → Prop) (read : List TokenKind) (result : σ ⊕ α)
    (after : ParseState) (text : List TokenKind) : Prop :=
  match result with
  | .inl next => text ≠ [] ∧ invariant next after (read ++ text)
  | .inr value => post value after (read ++ text)

theorem loopWithin (invariant : σ → ParseState → List TokenKind → Prop)
    (round : ∀ current state, Spells state (step current) fun result after text =>
      ∀ read, invariant current state read → Round invariant post read result after text)
    (rounds : Nat) (current : σ) (state : ParseState) (grown : before.errors ≤ state.errors)
    (holds : state.errors = before.errors → state.tokens.length < rounds ∧
      ∃ taken, before.tokens = taken ++ state.tokens ∧
        invariant current state (taken.map Token.kind)) :
    match loopWithin step rounds current state with
    | .ok value after =>
      before.errors ≤ after.errors ∧
        (after.errors = before.errors → ∃ taken, before.tokens = taken ++ after.tokens ∧
          post value after (taken.map Token.kind))
    | .error _ after => before.errors < after.errors := by
  induction rounds generalizing current state with
  | zero =>
      -- Without a fault there were fewer tokens than rounds, so the rounds cannot have run out.
      refine Nat.lt_of_le_of_ne grown fun clean => ?_
      exact absurd (holds clean.symm).1 (Nat.not_lt_zero _)
  | succ rounds ih =>
      simp only [Parse.loopWithin, Bind.bind, EStateM.bind]
      cases run : step current state with
      | error fault after => exact Nat.lt_of_le_of_lt grown ((round current state).error run)
      | ok result middle =>
          obtain ⟨grownToo, takes⟩ := (round current state).ok run
          cases result with
          | inr value =>
              refine ⟨Nat.le_trans grown grownToo, fun clean => ?_⟩
              obtain ⟨-, early, earlySplit, invariantHere⟩ := holds (by omega)
              obtain ⟨late, lateSplit, ensured⟩ := takes (by omega)
              refine ⟨early ++ late, by rw [earlySplit, lateSplit, List.append_assoc], ?_⟩
              rw [List.map_append]
              exact ensured _ invariantHere
          | inl next =>
              apply ih next middle (Nat.le_trans grown grownToo)
              intro clean
              obtain ⟨fewer, early, earlySplit, invariantHere⟩ := holds (by omega)
              obtain ⟨late, lateSplit, ensured⟩ := takes (by omega)
              obtain ⟨isSome, invariantNext⟩ := ensured _ invariantHere
              have shorter : middle.tokens.length < state.tokens.length := by
                have some : late ≠ [] := by simpa using isSome
                rw [lateSplit, List.length_append]
                have := List.length_pos_iff.mpr some
                omega
              refine ⟨by omega, early ++ late, ?_, ?_⟩
              · rw [earlySplit, lateSplit, List.append_assoc]
              · rwa [List.map_append]

theorem loop (invariant : σ → ParseState → List TokenKind → Prop) {start : σ}
    (holds : invariant start before [])
    (counts : ∀ current state read, invariant current state read →
      invariant current state.counted read)
    (round : ∀ current state, Spells state (step current) fun result after text =>
      ∀ read, invariant current state read → Round invariant post read result after text) :
    Spells before (loop step start) post := by
  apply loopWithin invariant _ (before.tokens.length + 1) start before (Nat.le_refl _) fun _ =>
    ⟨Nat.lt_succ_self _, [], rfl, holds⟩
  intro current state
  apply (round current state.counted).counted.imp
  intro result after text _ _ ensured read invariantHere
  exact ensured read (counts current state read invariantHere)

/-- A round reads an item, or what stands behind all items. -/
def ItemOrLast (item last : TokenLanguage) (result : σ ⊕ α) (text : List TokenKind) : Prop :=
  match result with
  | .inl _ => text ∈ item
  | .inr _ => text ∈ last

/-- Rounds that read one item each, and a last one. -/
theorem loopItems {item last : TokenLanguage} {start : σ} (notEmpty : [] ∉ item)
    (round : ∀ current state, Spells state (step current) fun result _ text =>
      ItemOrLast item last result text) :
    Derives before (Parse.loop step start) (item∗ * last) := by
  apply loop fun _ _ read => read ∈ item∗
  · exact Language.nil_mem_kstar item
  · exact fun _ _ _ isItems => isItems
  · intro current state
    apply (round current state).imp
    intro result after text _ _ ofPart read isItems
    cases result with
    | inr value => exact Language.append_mem_mul isItems ofPart
    | inl next =>
        refine ⟨?_, append_mem_kstar isItems ofPart⟩
        rintro rfl
        exact notEmpty ofPart

end Loop

theorem seq {first : Parse α} {second : α → Parse β} {part more : TokenLanguage}
    (starts : Derives before first part)
    (goesOn : ∀ value state, first before = .ok value state → Derives state (second value) more) :
    Derives before (first >>= second) (part * more) := by
  apply bind starts
  intro value state run
  apply (goesOn value state run).imp
  intro result after text _ _ ofMore early ofPart
  exact Language.append_mem_mul ofPart ofMore

/-- A part that takes nothing, behind another. -/
theorem seqLast {first : Parse α} {second : α → Parse β} {part : TokenLanguage}
    (starts : Derives before first part)
    (goesOn : ∀ value state, first before = .ok value state → Derives state (second value) 1) :
    Derives before (first >>= second) part := by
  have whole := seq starts goesOn
  rwa [mul_one] at whole

/-- A part that takes nothing, in front of another. -/
theorem seqNone {first : Parse α} {second : α → Parse β} {more : TokenLanguage}
    (starts : Derives before first 1)
    (goesOn : ∀ value state, first before = .ok value state → Derives state (second value) more) :
    Derives before (first >>= second) more := by
  have whole := seq starts goesOn
  rwa [one_mul] at whole

end Spells

end Parse

end DriverIdl
