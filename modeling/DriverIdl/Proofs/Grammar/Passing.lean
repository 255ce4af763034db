import DriverIdl.Proofs.Grammar.Basic
import DriverIdl.Proofs.Parsing.Runs

/-!
# Passing over a part of the grammar

A production whose part of the grammar is ahead takes just that part, or leaves somewhere in it, and
what it reports is not a matter of tokens or grammar: `Passes`.  Where it leaves is known as far as
recovery needs it: what is left of the part is an end of it, which a second part of the grammar
derives.  A production that never leaves has the empty part `0` there.
-/

namespace DriverIdl

/-- Faults that are neither of a token nor of the grammar. -/
def SourceFault.isQuiet (fault : SourceFault) : Bool :=
  fault.kind == .semantic || fault.kind == .structural

namespace ParseState

/-- The kinds of the tokens ahead. -/
def kinds (state : ParseState) : List TokenKind := state.tokens.map Token.kind

/-- What was reported between two states is neither of a token nor of the grammar. -/
def Quiet (before after : ParseState) : Prop :=
  ∃ found, after.diagnostics = before.diagnostics ++ found ∧
    ∀ diagnostic ∈ found, diagnostic.fault.isQuiet = true

namespace Quiet

variable {before middle after : ParseState}

theorem of_eq (same : after.diagnostics = before.diagnostics) : Quiet before after :=
  ⟨[], by simp [same], by simp⟩

theorem trans (first : Quiet before middle) (second : Quiet middle after) : Quiet before after := by
  obtain ⟨early, grown, earlyQuiet⟩ := first
  obtain ⟨late, grownToo, lateQuiet⟩ := second
  refine ⟨early ++ late, by rw [grownToo, grown, List.append_assoc], ?_⟩
  intro diagnostic listed
  exact (List.mem_append.mp listed).elim (earlyQuiet diagnostic) (lateQuiet diagnostic)

end Quiet

end ParseState

namespace Parse

open Computability Grammar ParseState

variable {α β σ : Type} {before : ParseState} {part more stuck : TokenLanguage}
  {follow : List TokenKind → Prop} {post : α → Prop}

/-- Whenever a text of a part is ahead and something fitting follows it, a run takes the text and
answers something fitting, or leaves at an end of the text.  It reports quiet faults only. -/
def Passes (before : ParseState) (production : Parse α) (part : TokenLanguage)
    (follow : List TokenKind → Prop) (post : α → Prop) (stuck : TokenLanguage) : Prop :=
  ∀ text rest, text ∈ part → follow rest → before.kinds = text ++ rest →
    match production before with
    | .ok value after => Quiet before after ∧ after.kinds = rest ∧ post value
    | .error _ after => Quiet before after ∧
        ∃ left, left <:+ text ∧ left ∈ stuck ∧ after.kinds = left ++ rest

namespace Passes

variable {production : Parse α}

theorem ok {text rest : List TokenKind} {value : α} {after : ParseState}
    (passes : Passes before production part follow post stuck) (ofPart : text ∈ part)
    (follows : follow rest) (ahead : before.kinds = text ++ rest)
    (run : production before = .ok value after) :
    Quiet before after ∧ after.kinds = rest ∧ post value := by
  have result := passes text rest ofPart follows ahead
  rwa [run] at result

theorem error {text rest : List TokenKind} {fault : Resync} {after : ParseState}
    (passes : Passes before production part follow post stuck) (ofPart : text ∈ part)
    (follows : follow rest) (ahead : before.kinds = text ++ rest)
    (run : production before = .error fault after) :
    Quiet before after ∧ ∃ left, left <:+ text ∧ left ∈ stuck ∧ after.kinds = left ++ rest := by
  have result := passes text rest ofPart follows ahead
  rwa [run] at result

theorem imp {weak : α → Prop} {wide : TokenLanguage}
    (passes : Passes before production part follow post stuck)
    (weaken : ∀ value, post value → weak value) (widen : stuck ≤ wide) :
    Passes before production part follow weak wide := by
  intro text rest ofPart follows ahead
  have result := passes text rest ofPart follows ahead
  split at result
  · exact ⟨result.1, result.2.1, weaken _ result.2.2⟩
  · obtain ⟨quiet, left, suffix, isStuck, behind⟩ := result
    exact ⟨quiet, left, suffix, widen isStuck, behind⟩

/-- Stronger assumptions, and what the end of a narrower part tells. -/
theorem narrow {narrower wide : TokenLanguage} {strong : List TokenKind → Prop}
    (passes : Passes before production part follow post stuck) (parts : narrower ≤ part)
    (follows : ∀ rest, strong rest → follow rest)
    (ends : ∀ text ∈ narrower, ∀ left ∈ stuck, left <:+ text → left ∈ wide) :
    Passes before production narrower strong post wide := by
  intro text rest ofPart isStrong ahead
  have result := passes text rest (parts ofPart) (follows rest isStrong) ahead
  split at result
  · exact result
  · obtain ⟨quiet, left, suffix, isStuck, behind⟩ := result
    exact ⟨quiet, left, suffix, ends text ofPart left isStuck suffix, behind⟩

theorem mono {narrower : TokenLanguage} (passes : Passes before production part follow post stuck)
    (parts : narrower ≤ part) : Passes before production narrower follow post stuck :=
  passes.narrow parts (fun _ follows => follows) fun _ _ _ isStuck _ => isStuck

theorem followedBy {strong : List TokenKind → Prop}
    (passes : Passes before production part follow post stuck)
    (follows : ∀ rest, strong rest → follow rest) :
    Passes before production part strong post stuck :=
  passes.narrow le_rfl follows fun _ _ _ isStuck _ => isStuck

theorem either (first : Passes before production part follow post stuck)
    (second : Passes before production more follow post stuck) :
    Passes before production (part + more) follow post stuck := by
  intro text rest ofPart follows ahead
  rcases ofPart with ofFirst | ofSecond
  · exact first text rest ofFirst follows ahead
  · exact second text rest ofSecond follows ahead

theorem pure {value : α} (holds : post value) :
    Passes before (Pure.pure value) 1 follow post stuck := by
  rintro text rest rfl - ahead
  exact ⟨.of_eq rfl, ahead, holds⟩

theorem bind {first : Parse α} {second : α → Parse β} {stuckFirst : TokenLanguage}
    {between : List TokenKind → Prop} {middle : α → Prop} {post : β → Prop}
    (starts : Passes before first part between middle stuckFirst)
    (goesOn : ∀ value state, middle value → (∃ text ∈ part, before.kinds = text ++ state.kinds) →
      Passes state (second value) more follow post stuck)
    (fits : ∀ text ∈ more, ∀ rest, follow rest → between (text ++ rest))
    (widen : stuckFirst * more ≤ stuck) :
    Passes before (first >>= second) (part * more) follow post stuck := by
  rintro text rest ofWhole follows ahead
  obtain ⟨early, ofPart, late, ofMore, rfl⟩ := Language.mem_mul.mp ofWhole
  rw [List.append_assoc] at ahead
  have behind := fits late ofMore rest follows
  have opened : (first >>= second) before = EStateM.bind first second before := rfl
  rw [opened, EStateM.bind]
  cases run : first before with
  | error fault state =>
      -- Left inside the first part: its end is ahead, and all of the second one.
      obtain ⟨quiet, left, suffix, isStuck, leftAhead⟩ := starts.error ofPart behind ahead run
      refine ⟨quiet, left ++ late, ?_, widen (Language.append_mem_mul isStuck ofMore), ?_⟩
      · obtain ⟨taken, rfl⟩ := suffix
        exact ⟨taken, (List.append_assoc _ _ _).symm⟩
      · rw [leftAhead, List.append_assoc]
  | ok value state =>
      obtain ⟨quiet, lateAhead, holds⟩ := starts.ok ofPart behind ahead run
      have taken : before.kinds = early ++ state.kinds := by rw [ahead, lateAhead]
      have rest := goesOn value state holds ⟨early, ofPart, taken⟩ late rest ofMore follows lateAhead
      simp only
      split at rest
      · exact ⟨quiet.trans rest.1, rest.2⟩
      · obtain ⟨quietToo, left, suffix, isStuck, leftAhead⟩ := rest
        exact ⟨quiet.trans quietToo, left, suffix.trans (List.suffix_append _ _), isStuck, leftAhead⟩

/-- Two parts, the first of which never leaves and may be followed by anything. -/
theorem seq {first : Parse α} {second : α → Parse β} {middle : α → Prop} {post : β → Prop}
    (starts : Passes before first part (fun _ => True) middle 0)
    (goesOn : ∀ value state, middle value → Passes state (second value) more follow post stuck) :
    Passes before (first >>= second) (part * more) follow post stuck :=
  bind starts (fun value state holds _ => goesOn value state holds) (fun _ _ _ _ => trivial)
    (by simp)

/-- Two parts in which a run may leave anywhere. -/
theorem seqTop {first : Parse α} {second : α → Parse β} {middle : α → Prop} {post : β → Prop}
    (starts : Passes before first part (fun _ => True) middle ⊤)
    (goesOn : ∀ value state, middle value → Passes state (second value) more follow post ⊤) :
    Passes before (first >>= second) (part * more) follow post ⊤ :=
  bind starts (fun value state holds _ => goesOn value state holds) (fun _ _ _ _ => trivial) le_top

/-- A part behind which nothing else is taken. -/
theorem last {first : Parse α} {second : α → Parse β} {middle : α → Prop} {post : β → Prop}
    (starts : Passes before first part follow middle stuck)
    (goesOn : ∀ value state, middle value → Passes state (second value) 1 follow post stuck) :
    Passes before (first >>= second) part follow post stuck := by
  have whole := bind starts (fun value state holds _ => goesOn value state holds)
    (by rintro _ rfl rest follows; exact follows) (by rw [mul_one])
  rwa [mul_one] at whole

/-- A part in front of which nothing is taken. -/
theorem skip {first : Parse α} {second : α → Parse β} {middle : α → Prop} {post : β → Prop}
    (starts : Passes before first 1 (fun _ => True) middle 0)
    (goesOn : ∀ value state, middle value → Passes state (second value) part follow post stuck) :
    Passes before (first >>= second) part follow post stuck := by
  have whole := seq starts goesOn
  rwa [one_mul] at whole

theorem bindOk {first : Parse α} {second : α → Parse β} {post : β → Prop} {value : α}
    (run : first before = .ok value before)
    (goesOn : Passes before (second value) part follow post stuck) :
    Passes before (first >>= second) part follow post stuck := by
  have opened : (first >>= second) before = second value before := by
    have unfolded : (first >>= second) before = EStateM.bind first second before := rfl
    rw [unfolded, EStateM.bind, run]
  unfold Passes
  rwa [opened]

theorem map {change : α → β} (passes : Passes before production part follow post stuck) :
    Passes before (change <$> production) part follow (fun _ => True) stuck :=
  last passes fun _ _ _ => pure trivial

/-- A change of the state that neither takes tokens nor reports. -/
theorem modify {change : ParseState → ParseState} (tokens : (change before).tokens = before.tokens)
    (diagnostics : (change before).diagnostics = before.diagnostics) :
    Passes before (modify change) 1 follow (fun _ => True) stuck := by
  rintro text rest rfl - ahead
  refine ⟨.of_eq diagnostics, ?_, trivial⟩
  rw [kinds] at ahead ⊢
  exact tokens ▸ ahead

theorem report {place : Position} {fault : SourceFault} (quiet : fault.isQuiet = true) :
    Passes before (report place fault) 1 follow (fun _ => True) stuck := by
  rintro text rest rfl - ahead
  exact ⟨⟨[⟨before.unit.path, place, fault⟩], rfl, by simpa using quiet⟩, ahead, trivial⟩

/-- A production that leaves does so in front of its part. -/
theorem fail {place : Position} {fault : SourceFault} (quiet : fault.isQuiet = true)
    (stays : part ≤ stuck) : Passes before (fail place fault) part follow post stuck := by
  rintro text rest ofPart - ahead
  refine ⟨⟨[⟨before.unit.path, place, fault⟩], rfl, by simpa using quiet⟩, ?_⟩
  exact ⟨text, List.suffix_refl _, stays ofPart, ahead⟩

theorem ite {condition : Prop} [Decidable condition] {other : Parse α}
    (holds : condition → Passes before production part follow post stuck)
    (fails : ¬condition → Passes before other part follow post stuck) :
    Passes before (if condition then production else other) part follow post stuck := by
  split
  · exact holds ‹_›
  · exact fails ‹_›

/-- A quiet fault that a condition leaves with. -/
theorem failIf {condition : Prop} [Decidable condition] {place : Position} {fault : SourceFault}
    {rest : β → Parse α} (quiet : fault.isQuiet = true) (stays : part ≤ stuck)
    (goesOn : Passes before production part follow post stuck) :
    Passes before (if condition then Parse.fail place fault >>= rest else production) part follow
      post stuck := by
  split
  · have leaves : Passes before (Parse.fail place fault) part follow post stuck := fail quiet stays
    exact leaves
  · exact goesOn

theorem reportIf {condition : Prop} [Decidable condition] {place : Position} {fault : SourceFault}
    {rest : PUnit → Parse α} (quiet : fault.isQuiet = true)
    (goesOn : ∀ state, Passes state (rest ⟨⟩) part follow post stuck) :
    Passes before (if condition then Parse.report place fault >>= rest else rest ⟨⟩) part follow
      post stuck := by
  split
  · exact skip (report quiet) fun _ state _ => goesOn state
  · exact goesOn before

/-- A production whose failure is caught, and what goes on behind the broken part. -/
theorem bindAttempt {rest : Option α → Parse β} {broken wide : TokenLanguage} {result : β → Prop}
    (passes : Passes before production part follow post stuck)
    (ends : ∀ text ∈ part, ∀ left ∈ stuck, left <:+ text → left ∈ broken)
    (goesOn : ∀ value state, post value → Passes state (rest (some value)) 1 follow result wide)
    (recovers : ∀ state, Passes state (rest none) broken follow result wide) :
    Passes before (attempt production >>= rest) part follow result wide := by
  intro text behind ofPart follows ahead
  have opened : (attempt production >>= rest) before =
      EStateM.bind (attempt production) rest before := rfl
  rw [opened, EStateM.bind]
  simp only [attempt]
  cases run : production before with
  | ok value state =>
      obtain ⟨quiet, atRest, holds⟩ := passes.ok ofPart follows ahead run
      have later := goesOn value state holds [] behind rfl follows atRest
      simp only
      split at later
      · exact ⟨quiet.trans later.1, later.2⟩
      · obtain ⟨quietToo, left, suffix, isStuck, leftAhead⟩ := later
        exact ⟨quiet.trans quietToo, left, suffix.trans (List.nil_suffix), isStuck, leftAhead⟩
  | error fault state =>
      -- The end that is left is one that recovery passes over, down to what follows the whole.
      obtain ⟨quiet, left, suffix, isStuck, leftAhead⟩ := passes.error ofPart follows ahead run
      have isBroken := ends text ofPart left isStuck suffix
      have later := recovers state left behind isBroken follows leftAhead
      simp only
      split at later
      · exact ⟨quiet.trans later.1, later.2⟩
      · obtain ⟨quietToo, still, shorter, isWide, stillAhead⟩ := later
        exact ⟨quiet.trans quietToo, still, shorter.trans suffix, isWide, stillAhead⟩

/-- Counting a round passes over nothing. -/
theorem counted (passes : Passes before.counted production part follow post stuck) :
    Passes before (fun state => production state.counted) part follow post stuck :=
  fun text rest ofPart follows ahead => passes text rest ofPart follows ahead

section Loop

variable {step : σ → Parse (σ ⊕ α)} {item final : TokenLanguage}

/-- A loop over items: each round takes one, and the last round what is behind them. -/
theorem loopWithin {between : List TokenKind → Prop} (notEmpty : [] ∉ item)
    (round : ∀ current state, Passes state (step current) item between
      (fun result => result.isLeft = true) stuck)
    (ends : ∀ current state, Passes state (step current) final follow
      (fun result => result.isRight = true) stuck)
    (fits : ∀ text ∈ item∗ * final, ∀ rest, follow rest → between (text ++ rest))
    (widen : stuck * (item∗ * final) ≤ stuck) (rounds : Nat) (current : σ) (state : ParseState)
    (enough : state.kinds.length < rounds) :
    Passes state (loopWithin step rounds current) (item∗ * final) follow (fun _ => True) stuck := by
  induction rounds generalizing current state with
  | zero => exact absurd enough (Nat.not_lt_zero _)
  | succ rounds ih =>
      -- The text tells which round this is: no items are left, or one and then the others.
      have unrolled : 1 + item * item∗ = item∗ := one_add_mul_kstar
      rw [← unrolled, add_mul, one_mul, mul_assoc]
      apply either
      · apply last (ends current state)
        intro result later isRight
        cases result with
        | inl next => cases isRight
        | inr value => exact pure trivial
      · apply bind (round current state) _ fits widen
        rintro result later isLeft ⟨text, isItem, taken⟩
        cases result with
        | inr value => cases isLeft
        | inl next =>
            apply ih next later
            have some : text ≠ [] := ne_of_mem_of_not_mem isItem notEmpty
            have positive := List.length_pos_iff.mpr some
            rw [taken, List.length_append] at enough
            omega

theorem loop (between : List TokenKind → Prop) {start : σ} (notEmpty : [] ∉ item)
    (round : ∀ current state, Passes state (step current) item between
      (fun result => result.isLeft = true) stuck)
    (ends : ∀ current state, Passes state (step current) final follow
      (fun result => result.isRight = true) stuck)
    (fits : ∀ text ∈ item∗ * final, ∀ rest, follow rest → between (text ++ rest))
    (widen : stuck * (item∗ * final) ≤ stuck) :
    Passes before (loop step start) (item∗ * final) follow (fun _ => True) stuck := by
  have enough : before.kinds.length < before.tokens.length + 1 := by simp [kinds]
  exact loopWithin notEmpty (fun current state => (round current state.counted).counted)
    (fun current state => (ends current state.counted).counted) fits widen _ start before enough

end Loop

end Passes

end Parse

end DriverIdl
