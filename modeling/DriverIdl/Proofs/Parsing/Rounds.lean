import DriverIdl.Proofs.Parsing.Faults

/-!
# Rounds of loops

A loop whose rounds take a token, but for the last one, ends by itself, and each of its rounds is
paid by a token.  `Spends` bounds the rounds that a production goes for in its loops by the tokens
that it takes, whether it answers or leaves; rates add up where loops stand inside loops.
-/

namespace DriverIdl

namespace ParseState

/-- What may lie between two states: tokens are only taken from the front, and loops have gone for at
most `rate` rounds for each token that was taken, and for `extra` rounds beside. -/
structure Spent (rate extra : Nat) (before after : ParseState) : Prop where
  tokens : after.tokens <:+ before.tokens
  rounds : after.rounds + rate * after.tokens.length ≤
    before.rounds + rate * before.tokens.length + extra

namespace Spent

variable {rate extra beside more : Nat} {before middle after : ParseState}

theorem of_eq (tokens : after.tokens <:+ before.tokens) (rounds : after.rounds = before.rounds) :
    Spent rate 0 before after where
  tokens := tokens
  rounds := by
    have := Nat.mul_le_mul_left rate tokens.length_le
    omega

theorem trans (first : Spent rate extra before middle) (second : Spent rate beside middle after) :
    Spent rate (extra + beside) before after where
  tokens := second.tokens.trans first.tokens
  rounds := by
    have := first.rounds
    have := second.rounds
    omega

theorem mono (spent : Spent rate extra before after) (rates : rate ≤ more)
    (extras : extra ≤ beside) : Spent more beside before after where
  tokens := spent.tokens
  rounds := by
    obtain ⟨raise, rfl⟩ := Nat.exists_eq_add_of_le rates
    have := Nat.mul_le_mul_left raise spent.tokens.length_le
    have := spent.rounds
    rw [Nat.add_mul, Nat.add_mul]
    omega

end Spent

end ParseState

namespace Parse

open ParseState

variable {α β σ : Type} {rate extra beside more : Nat} {production : Parse α}

/-- How many rounds the loops of a production go for. -/
def Spends (rate extra : Nat) (production : Parse α) : Prop :=
  ∀ before, Spent rate extra before (stateAfter production before)

/-- A production takes a token whenever it gives an answer of some sort. -/
def TakesFor (answers : α → Prop) (production : Parse α) : Prop :=
  ∀ before value after, production before = .ok value after → answers value →
    after.tokens.length < before.tokens.length

/-- A round takes a token, unless it is the last one. -/
def Progresses (step : σ → Parse (σ ⊕ α)) : Prop :=
  ∀ current, TakesFor (fun result => result.isLeft = true) (step current)

theorem expect_cases (kind : TokenKind) (expected : String) (before : ParseState) :
    (expect kind expected before =
        .ok (ahead before) { before with tokens := before.tokens.tail } ∧
      (ahead before).kind = kind) ∨
    ∃ after, expect kind expected before = .error .resync after ∧
      after.tokens = before.tokens ∧ after.rounds = before.rounds := by
  simp only [expect, Bind.bind, EStateM.bind, peek_run]
  split
  · rename_i isKind
    exact .inl ⟨rfl, isKind⟩
  · exact .inr ⟨_, rfl, rfl, rfl⟩

/-- A token that is taken pays for rounds. -/
theorem spent_of_taken {before after : ParseState} (notEnd : (ahead before).kind ≠ .eof)
    (spent : Spent rate (extra + rate) { before with tokens := before.tokens.tail } after) :
    Spent rate extra before after where
  tokens := spent.tokens.trans (List.tail_suffix _)
  rounds := by
    have taken : before.tokens.tail.length < before.tokens.length :=
      (takes_ahead notEnd).length_lt
    have paid := Nat.mul_le_mul_left rate (Nat.succ_le_of_lt taken)
    have rounds : after.rounds + rate * after.tokens.length ≤
        before.rounds + rate * before.tokens.tail.length + (extra + rate) := spent.rounds
    rw [Nat.mul_succ] at paid
    omega

namespace Spends

theorem ok {before after : ParseState} {value : α} (spends : Spends rate extra production)
    (run : production before = .ok value after) : Spent rate extra before after :=
  stateAfter_ok run ▸ spends before

theorem error {before after : ParseState} {fault : Resync} (spends : Spends rate extra production)
    (run : production before = .error fault after) : Spent rate extra before after :=
  stateAfter_error run ▸ spends before

theorem mono (spends : Spends rate extra production) (rates : rate ≤ more)
    (extras : extra ≤ beside) : Spends more beside production :=
  fun before => (spends before).mono rates extras

/-- A production that goes for no round. -/
theorem free (tokens : ∀ before, (stateAfter production before).tokens <:+ before.tokens)
    (rounds : ∀ before, (stateAfter production before).rounds = before.rounds) :
    Spends rate 0 production :=
  fun before => .of_eq (tokens before) (rounds before)

theorem pure (value : α) : Spends rate 0 (Pure.pure value) :=
  free (fun _ => List.suffix_refl _) fun _ => rfl

theorem leave : Spends rate 0 (throw .resync : Parse α) :=
  free (fun _ => List.suffix_refl _) fun _ => rfl

theorem get : Spends rate 0 (get : Parse ParseState) :=
  free (fun _ => List.suffix_refl _) fun _ => rfl

theorem types : Spends rate 0 types := free (fun _ => List.suffix_refl _) fun _ => rfl

theorem peek : Spends rate 0 peek := free (fun _ => List.suffix_refl _) fun _ => rfl

theorem next : Spends rate 0 next := free (fun _ => List.tail_suffix _) fun _ => rfl

theorem report (place : Position) (fault : SourceFault) : Spends rate 0 (report place fault) :=
  free (fun _ => List.suffix_refl _) fun _ => rfl

theorem fail (place : Position) (fault : SourceFault) :
    Spends rate 0 (fail place fault : Parse α) :=
  free (fun _ => List.suffix_refl _) fun _ => rfl

theorem unexpected (token : Token) (expected : String) :
    Spends rate 0 (unexpected token expected : Parse α) :=
  fail _ _

theorem modify {change : ParseState → ParseState}
    (tokens : ∀ state, (change state).tokens = state.tokens)
    (rounds : ∀ state, (change state).rounds = state.rounds) : Spends rate 0 (modify change) :=
  free (fun state => (tokens state ▸ List.suffix_refl _ : (change state).tokens <:+ _)) rounds

theorem intern (key : TypeKey) (node : TypeNode) : Spends rate 0 (intern key node) :=
  free (fun _ => List.suffix_refl _) fun _ => rfl

theorem bindBoth {first : Parse α} {second : α → Parse β} (starts : Spends rate extra first)
    (goesOn : ∀ value, Spends rate beside (second value)) :
    Spends rate (extra + beside) (first >>= second) := by
  intro before
  cases firstRun : first before with
  | error fault after =>
      rw [stateAfter_bind_error firstRun]
      exact (starts.error firstRun).mono (Nat.le_refl _) (Nat.le_add_right _ _)
  | ok value state =>
      rw [stateAfter_bind firstRun]
      exact (starts.ok firstRun).trans (goesOn value state)

/-- All rounds are gone for in the first part. -/
theorem bind {first : Parse α} {second : α → Parse β} (starts : Spends rate extra first)
    (goesOn : ∀ value, Spends rate 0 (second value)) : Spends rate extra (first >>= second) :=
  bindBoth starts goesOn

/-- All rounds are gone for in the second part. -/
theorem bindFree {first : Parse α} {second : α → Parse β} (starts : Spends rate 0 first)
    (goesOn : ∀ value, Spends rate extra (second value)) :
    Spends rate extra (first >>= second) :=
  (bindBoth starts goesOn).mono (Nat.le_refl _) (Nat.le_of_eq (Nat.zero_add _))

theorem map {change : α → β} (spends : Spends rate extra production) :
    Spends rate extra (change <$> production) :=
  bind spends fun value => pure (change value)

theorem ite {condition : Prop} [Decidable condition] {other : Parse α}
    (holds : Spends rate extra production) (fails : Spends rate extra other) :
    Spends rate extra (if condition then production else other) := by
  split
  · exact holds
  · exact fails

theorem attempt (spends : Spends rate extra production) :
    Spends rate extra (attempt production) := by
  intro before
  obtain ⟨result, run⟩ := attempt_eq production before
  rw [stateAfter_ok run]
  exact spends before

/-- A fault that is reported on a condition in front of a part. -/
theorem reportIf {condition : Prop} [Decidable condition] {place : Position} {fault : SourceFault}
    {rest : PUnit → Parse α} (goesOn : Spends rate extra (rest ⟨⟩)) :
    Spends rate extra (if condition then Parse.report place fault >>= rest else rest ⟨⟩) :=
  ite (bindFree (report place fault) fun _ => goesOn) goesOn

/-- A choice between two parts that go on alike. -/
theorem bindIf {condition : Prop} [Decidable condition] {first other : Parse α}
    {rest : α → Parse β} (holds : Spends rate 0 first) (fails : Spends rate 0 other)
    (goesOn : ∀ value, Spends rate extra (rest value)) :
    Spends rate extra (if condition then first >>= rest else other >>= rest) :=
  ite (bindFree holds goesOn) (bindFree fails goesOn)

/-- A fault that is reported on a condition, and a result either way. -/
theorem reportOr {condition : Prop} [Decidable condition] {place : Position} {fault : SourceFault}
    {faulty other : α} {rest : α → Parse β} (goesOn : ∀ value, Spends rate extra (rest value)) :
    Spends rate extra (if condition then
        Parse.report place fault >>= fun _ => Pure.pure faulty >>= rest
      else Pure.pure other >>= rest) :=
  ite (bindFree (report place fault) fun _ => bindFree (pure faulty) goesOn)
    (bindFree (pure other) goesOn)

/-- A token that is expected pays for what follows. -/
theorem bindExpect {kind : TokenKind} {expected : String} {rest : Token → Parse β}
    (notEnd : kind ≠ .eof) (goesOn : ∀ token, Spends rate (extra + rate) (rest token)) :
    Spends rate extra (Parse.expect kind expected >>= rest) := by
  intro before
  rcases expect_cases kind expected before with ⟨run, isKind⟩ | ⟨after, run, tokens, rounds⟩
  · rw [stateAfter_bind run]
    exact spent_of_taken (isKind ▸ notEnd) (goesOn _ _)
  · rw [stateAfter_bind_error run]
    have same : Spent rate 0 before after := .of_eq (tokens ▸ List.suffix_refl _) rounds
    exact same.mono (Nat.le_refl _) (Nat.zero_le _)

/-- A token pays for what follows, and there is nothing to pay at the end. -/
theorem bindNext {rest : Token → Parse β}
    (goesOn : ∀ token, Spends rate (extra + rate) (rest token))
    (ends : ∀ token, token.kind = .eof → Spends rate extra (rest token)) :
    Spends rate extra (Parse.next >>= rest) := by
  intro before
  rw [stateAfter_bind (next_run before)]
  by_cases atEnd : (ahead before).kind = .eof
  · have taken : Spent rate 0 before { before with tokens := before.tokens.tail } :=
      .of_eq (List.tail_suffix _) rfl
    exact (taken.trans (ends _ atEnd _)).mono (Nat.le_refl _) (Nat.le_of_eq (Nat.zero_add _))
  · exact spent_of_taken atEnd (goesOn _ _)

theorem expect (kind : TokenKind) (expected : String) : Spends rate 0 (expect kind expected) :=
  bindFree peek fun _ => ite next (unexpected _ expected)

theorem eat (kind : TokenKind) : Spends rate 0 (eat kind) :=
  bindFree peek fun _ => ite (bind next fun _ => pure true) (pure false)

end Spends

namespace TakesFor

variable {answers : α → Prop}

theorem pure {value : α} (other : ¬answers value) : TakesFor answers (Pure.pure value) := by
  rintro before _ _ ⟨⟩ isAnswer
  exact absurd isAnswer other

theorem fail (place : Position) (fault : SourceFault) : TakesFor answers (fail place fault) := by
  rintro before value after ⟨⟩

theorem unexpected (token : Token) (expected : String) :
    TakesFor answers (unexpected token expected) :=
  fail _ _

theorem ite {condition : Prop} [Decidable condition] {production other : Parse α}
    (holds : TakesFor answers production) (fails : TakesFor answers other) :
    TakesFor answers (if condition then production else other) := by
  split
  · exact holds
  · exact fails

/-- A token is taken in the second part. -/
theorem bind (rate extra : Nat) {first : Parse β} {second : β → Parse α}
    (starts : Spends rate extra first) (goesOn : ∀ value, TakesFor answers (second value)) :
    TakesFor answers (first >>= second) := by
  intro before value after run isAnswer
  obtain ⟨_, middle, firstRun, secondRun⟩ := bind_eq_ok.mp run
  exact Nat.lt_of_lt_of_le (goesOn _ _ _ _ secondRun isAnswer)
    (starts.ok firstRun).tokens.length_le

/-- A token is taken in the first part. -/
theorem bindTaken (rate extra : Nat) {first : Parse β} {second : β → Parse α}
    (takes : TakesFor (fun _ => True) first)
    (goesOn : ∀ value, Spends rate extra (second value)) : TakesFor answers (first >>= second) := by
  intro before value after run _
  obtain ⟨_, middle, firstRun, secondRun⟩ := bind_eq_ok.mp run
  exact Nat.lt_of_le_of_lt ((goesOn _).ok secondRun).tokens.length_le
    (takes _ _ _ firstRun trivial)

/-- A token is taken if it is of some kind. -/
theorem bindEat (rate extra : Nat) {kind : TokenKind} {yes no : Parse α} (notEnd : kind ≠ .eof)
    (goesOn : Spends rate extra yes) (leaves : TakesFor answers no) :
    TakesFor answers (Parse.eat kind >>= fun taken => if taken then yes else no) := by
  intro before value after run isAnswer
  obtain ⟨taken, middle, eaten, rest⟩ := bind_eq_ok.mp run
  rcases eat_ok notEnd eaten with ⟨rfl, token, takes, -⟩ | ⟨rfl, rfl, -⟩
  · exact Nat.lt_of_le_of_lt (goesOn.ok rest).tokens.length_le takes.length_lt
  · exact leaves _ _ _ rest isAnswer

/-- A token is taken unless nothing is ahead. -/
theorem bindNext (rate extra : Nat) {rest : Token → Parse α}
    (goesOn : ∀ token, Spends rate extra (rest token))
    (ends : ∀ token, token.kind = .eof → TakesFor answers (rest token)) :
    TakesFor answers (Parse.next >>= rest) := by
  intro before value after run isAnswer
  obtain ⟨token, middle, ⟨⟩, secondRun⟩ := bind_eq_ok.mp run
  by_cases atEnd : (ahead before).kind = .eof
  · exact Nat.lt_of_lt_of_le (ends _ atEnd _ _ _ secondRun isAnswer)
      (List.tail_suffix before.tokens).length_le
  · exact Nat.lt_of_le_of_lt ((goesOn _).ok secondRun).tokens.length_le
      (takes_ahead atEnd).length_lt

theorem expect {answers : Token → Prop} {kind : TokenKind} {expected : String}
    (notEnd : kind ≠ .eof) : TakesFor answers (expect kind expected) :=
  fun _ _ _ run _ => (expect_ok notEnd run).1.length_lt

end TakesFor

/-- A run from a state takes a token, also if it leaves. -/
def Shrinks (production : Parse α) (before : ParseState) : Prop :=
  (stateAfter production before).tokens.length < before.tokens.length

namespace Shrinks

variable {first : Parse α} {second : α → Parse β} {before : ParseState}

/-- A token is taken in the first part. -/
theorem bind (rate extra : Nat) (shrinks : Shrinks first before)
    (goesOn : ∀ value, Spends rate extra (second value)) : Shrinks (first >>= second) before := by
  unfold Shrinks at shrinks
  cases run : first before with
  | error fault after =>
      rw [stateAfter_error run] at shrinks
      rw [Shrinks, stateAfter_bind_error run]
      exact shrinks
  | ok value middle =>
      rw [stateAfter_ok run] at shrinks
      rw [Shrinks, stateAfter_bind run]
      exact Nat.lt_of_le_of_lt (goesOn value middle).tokens.length_le shrinks

/-- A token is taken in the second part. -/
theorem bindSame {value : α} {middle : ParseState} (run : first before = .ok value middle)
    (same : middle.tokens = before.tokens) (shrinks : Shrinks (second value) middle) :
    Shrinks (first >>= second) before := by
  rw [Shrinks, stateAfter_bind run, ← same]
  exact shrinks

theorem expect {kind : TokenKind} {expected : String} (isKind : (ahead before).kind = kind)
    (notEnd : kind ≠ .eof) : Shrinks (expect kind expected) before := by
  rcases expect_cases kind expected before with ⟨run, -⟩ | ⟨after, run, -⟩
  · rw [Shrinks, stateAfter_ok run]
    exact (takes_ahead (isKind ▸ notEnd)).length_lt
  · simp only [Parse.expect, Bind.bind, EStateM.bind, peek_run, if_pos isKind, next_run] at run
    cases run

theorem next (notEnd : (ahead before).kind ≠ .eof) : Shrinks next before :=
  (takes_ahead notEnd).length_lt

end Shrinks

/-- A production starts with a token of a kind. -/
def StartsWith (kind : TokenKind) (rate extra : Nat) (production : Parse α) : Prop :=
  ∃ expected rest, production = expect kind expected >>= rest ∧ ∀ token, Spends rate extra (rest token)

namespace StartsWith

variable {kind : TokenKind}

theorem spends (starts : StartsWith kind rate extra production) :
    Spends rate extra production := by
  obtain ⟨expected, rest, rfl, goesOn⟩ := starts
  exact .bindFree (.expect kind expected) goesOn

/-- The first token pays. -/
theorem paid (notEnd : kind ≠ .eof) (starts : StartsWith kind rate (extra + rate) production) :
    Spends rate extra production := by
  obtain ⟨expected, rest, rfl, goesOn⟩ := starts
  exact .bindExpect notEnd goesOn

theorem shrinks {before : ParseState} (notEnd : kind ≠ .eof)
    (starts : StartsWith kind rate extra production) (isKind : (ahead before).kind = kind) :
    Shrinks production before := by
  obtain ⟨expected, rest, rfl, goesOn⟩ := starts
  exact .bind rate extra (.expect isKind notEnd) goesOn

end StartsWith

section Loop

variable {step : σ → Parse (σ ⊕ α)}

theorem Progresses.taken (progresses : Progresses step) {current next : σ}
    {before after : ParseState} (run : round step current before = .ok (.inl next) after) :
    after.tokens.length < before.tokens.length :=
  progresses current before.counted (.inl next) after run rfl

/-- Counting a round is going for it. -/
theorem Spends.round {current : σ} (spends : Spends rate extra (step current)) :
    Spends rate (extra + 1) (Parse.round step current) := by
  intro before
  have spent := spends before.counted
  have rounds : (stateAfter (step current) before.counted).rounds +
      rate * (stateAfter (step current) before.counted).tokens.length ≤
        before.rounds + 1 + rate * before.tokens.length + extra := spent.rounds
  exact ⟨spent.tokens, Nat.le_trans rounds (by omega)⟩

/-- A round goes for rounds that the token pays for which it takes; only the last one does not pay. -/
theorem Spends.loopWithin (each : ∀ current, Spends rate extra (step current))
    (progresses : Progresses step) (count : Nat) (current : σ) :
    Spends (rate + (extra + 1)) (extra + 1)
      (Parse.loopWithin (Parse.round step) count current) := by
  induction count generalizing current with
  | zero => exact leave.mono (Nat.le_refl _) (Nat.zero_le _)
  | succ count ih =>
      intro before
      have spends := (each current).round
      cases run : Parse.round step current before with
      | error fault after =>
          have left : stateAfter (Parse.loopWithin (Parse.round step) (count + 1) current) before =
            after := stateAfter_bind_error run
          rw [left]
          exact (spends.error run).mono (Nat.le_add_right _ _) (Nat.le_refl _)
      | ok result middle =>
          have spent := spends.ok run
          cases result with
          | inr value =>
              rw [stateAfter_ok (loopWithin_done count run)]
              exact spent.mono (Nat.le_add_right _ _) (Nat.le_refl _)
          | inl next =>
              have paid : Spent (rate + (extra + 1)) 0 before middle :=
                { tokens := spent.tokens
                  rounds := by
                    have rounds := spent.rounds
                    have enough := Nat.mul_le_mul_left (extra + 1)
                      (Nat.succ_le_of_lt (progresses.taken run))
                    rw [Nat.mul_succ] at enough
                    rw [Nat.add_mul rate (extra + 1), Nat.add_mul rate (extra + 1)]
                    omega }
              have again : stateAfter (Parse.loopWithin (Parse.round step) (count + 1) current)
                  before = stateAfter (Parse.loopWithin (Parse.round step) count next) middle := by
                simp only [stateAfter, loopWithin_more count run]
              rw [again]
              exact (paid.trans (ih next middle)).mono (Nat.le_refl _)
                (Nat.le_of_eq (Nat.zero_add _))

/-- The rounds of a loop, those of the loops inside its rounds included. -/
theorem Spends.loop (rate extra : Nat) {start : σ}
    (each : ∀ current, Spends rate extra (step current)) (progresses : Progresses step) :
    Spends (rate + (extra + 1)) (extra + 1) (Parse.loop step start) :=
  bindFree get fun _ => Spends.loopWithin each progresses _ start

/-- How often a loop may go round at most is no matter, as long as it is more often than there are
tokens ahead. -/
theorem Progresses.loopWithin_eq (progresses : Progresses step) {count more : Nat} {current : σ}
    {before : ParseState} (enough : before.tokens.length < count)
    (enoughToo : before.tokens.length < more) :
    loopWithin (round step) count current before = loopWithin (round step) more current before := by
  induction count generalizing more current before with
  | zero => exact absurd enough (Nat.not_lt_zero _)
  | succ count ih =>
      obtain ⟨more, rfl⟩ := Nat.exists_eq_succ_of_ne_zero (Nat.ne_of_gt (Nat.zero_lt_of_lt enoughToo))
      cases run : round step current before with
      | error fault after => simp only [loopWithin, Bind.bind, EStateM.bind, run]
      | ok result middle =>
          cases result with
          | inr value => rw [loopWithin_done count run, loopWithin_done more run]
          | inl next =>
              have taken := progresses.taken run
              rw [loopWithin_more count run, loopWithin_more more run]
              exact ih (by omega) (by omega)

/-- A loop ends by itself: a round takes a token or is the last one, so the loop is one round and,
unless that is the last one, the loop again. -/
structure EndsByItself (step : σ → Parse (σ ⊕ α)) : Prop where
  progresses : Progresses step
  unfolds : ∀ start before, loop step start before =
    (do
      match ← round step start with
      | .inl next => loop step next
      | .inr value => return value) before

theorem Progresses.endsByItself (progresses : Progresses step) : EndsByItself step where
  progresses := progresses
  unfolds start before := by
    have opened : loop step start before =
      loopWithin (round step) (before.tokens.length + 1) start before := rfl
    rw [opened]
    simp only [Bind.bind, EStateM.bind]
    cases run : round step start before with
    | error fault after => simp only [loopWithin, Bind.bind, EStateM.bind, run]
    | ok result middle =>
        cases result with
        | inr value => exact loopWithin_done _ run
        | inl next =>
            rw [loopWithin_more _ run]
            exact progresses.loopWithin_eq (progresses.taken run) (Nat.lt_succ_self _)

/-- A loop whose rounds never leave does not leave. -/
theorem Progresses.exists_ok (progresses : Progresses step)
    (each : ∀ current before, ∃ result after, step current before = .ok result after) (start : σ)
    (before : ParseState) : ∃ value after, loop step start before = .ok value after := by
  have rounds (count : Nat) : ∀ current state, state.tokens.length < count →
      ∃ value after, loopWithin (round step) count current state = .ok value after := by
    induction count with
    | zero => exact fun _ _ enough => absurd enough (Nat.not_lt_zero _)
    | succ count ih =>
        intro current state enough
        obtain ⟨result, middle, isRun⟩ := each current state.counted
        have run : round step current state = .ok result middle := isRun
        cases result with
        | inr value => exact ⟨value, middle, loopWithin_done count run⟩
        | inl next =>
            have taken := progresses.taken run
            rw [loopWithin_more count run]
            exact ih next middle (by omega)
  exact rounds _ start before (Nat.lt_succ_self _)

end Loop

end Parse

end DriverIdl
