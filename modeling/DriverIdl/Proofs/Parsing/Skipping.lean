import DriverIdl.Proofs.Parsing.Runs

/-!
# Going on behind what is broken

Both ways of going on only take tokens from the front.  What they leave is a suffix of the tokens
ahead, which depends on the kinds of the tokens and on nothing else of the state.
-/

namespace DriverIdl.Parse

open ParseState

variable {mark : Nat} {known : Prop} {before : ParseState}

/-- What is left behind a broken statement. -/
def afterStatement : List Token → List Token
  | [] => []
  | token :: rest =>
    if token.kind = .braceClose || token.kind.startsDeclaration then token :: rest
    else if token.kind = .semicolon then rest
    else afterStatement rest

/-- What is left behind a broken declaration, inside as many braces as the depth says. -/
def afterDeclaration (depth : Nat) : List Token → List Token
  | [] => []
  | token :: rest =>
    if depth = 0 && (token.kind.startsDeclaration || token.kind = .bracketOpen) then token :: rest
    else if token.kind = .braceOpen then afterDeclaration (depth + 1) rest
    else if token.kind = .braceClose then
      if depth ≤ 1 then
        match rest with
        | [] => []
        | closing :: others => if closing.kind = .semicolon then others else closing :: others
      else afterDeclaration (depth - 1) rest
    else afterDeclaration depth rest

theorem afterStatement_suffix (tokens : List Token) : afterStatement tokens <:+ tokens := by
  fun_induction afterStatement tokens with
  | case1 => exact List.suffix_refl _
  | case2 => exact List.suffix_refl _
  | case3 token rest => exact List.suffix_cons token rest
  | case4 token rest _ _ ih => exact ih.trans (List.suffix_cons token rest)

theorem afterDeclaration_suffix (depth : Nat) (tokens : List Token) :
    afterDeclaration depth tokens <:+ tokens := by
  fun_induction afterDeclaration depth tokens with
  | case1 => exact List.suffix_refl _
  | case2 => exact List.suffix_refl _
  | case3 depth token rest _ _ ih => exact ih.trans (List.suffix_cons token rest)
  | case4 => simp
  | case5 depth token _ _ _ _ closing others =>
      exact (List.suffix_cons closing others).trans (List.suffix_cons token _)
  | case6 depth token => exact List.suffix_cons token _
  | case7 depth token rest _ _ _ _ ih => exact ih.trans (List.suffix_cons token rest)
  | case8 depth token rest _ _ _ ih => exact ih.trans (List.suffix_cons token rest)

section Loop

variable {σ α : Type}

/-- A round that ends its loop. -/
theorem loopWithin_done {step : σ → Parse (σ ⊕ α)} {current : σ} {value : α} {after : ParseState}
    (count : Nat) (ends : step current before = .ok (.inr value) after) :
    loopWithin step (count + 1) current before = .ok value after := by
  simp only [loopWithin, Bind.bind, EStateM.bind, ends]
  rfl

/-- A round behind which the loop goes on. -/
theorem loopWithin_more {step : σ → Parse (σ ⊕ α)} {current next : σ} {after : ParseState}
    (count : Nat) (goesOn : step current before = .ok (.inl next) after) :
    loopWithin step (count + 1) current before = loopWithin step count next after := by
  simp only [loopWithin, Bind.bind, EStateM.bind, goesOn]

end Loop

theorem skipStatementRound_run (state : ParseState) :
    skipStatementRound () state =
      match state.tokens with
      | [] => .ok (.inr ()) state
      | token :: rest =>
        if token.kind = .braceClose || token.kind.startsDeclaration then .ok (.inr ()) state
        else if token.kind = .semicolon then .ok (.inr ()) { state with tokens := rest }
        else .ok (.inl ()) { state with tokens := rest } := by
  simp only [skipStatementRound, Bind.bind, EStateM.bind, get_run]
  cases tokens : state.tokens with
  | nil => rfl
  | cons token rest =>
      simp only
      split
      · rfl
      · simp only [EStateM.bind, next_run, tokens, List.tail_cons]
        split <;> rfl

theorem skipStatement_rounds (state : ParseState) {count : Nat}
    (enough : state.tokens.length < count) :
    ∃ rounds, loopWithin (round skipStatementRound) count () state =
      .ok () { state with tokens := afterStatement state.tokens, rounds := rounds } := by
  induction count generalizing state with
  | zero => exact absurd enough (Nat.not_lt_zero _)
  | succ count ih =>
      have step : round skipStatementRound () state = _ := skipStatementRound_run state.counted
      cases tokens : state.tokens with
      | nil =>
          simp only [ParseState.counted, tokens] at step
          exact ⟨_, loopWithin_done count step⟩
      | cons token rest =>
          simp only [ParseState.counted, tokens] at step
          rw [afterStatement]
          split at step
          · exact ⟨_, by rw [loopWithin_done count step, if_pos ‹_›]⟩
          · rw [if_neg ‹_›]
            split at step
            · exact ⟨_, by rw [loopWithin_done count step, if_pos ‹_›]⟩
            · rw [if_neg ‹_›, loopWithin_more count step]
              rw [tokens, List.length_cons] at enough
              exact ih _ (by simpa using enough)

theorem recoverStatement_run (state : ParseState) :
    ∃ rounds, recoverStatement state =
      .ok () { state with tokens := afterStatement state.tokens, rounds := rounds } :=
  skipStatement_rounds state (Nat.lt_succ_self _)

theorem skipDeclarationRound_run (depth : Nat) (state : ParseState) :
    skipDeclarationRound depth state =
      match state.tokens with
      | [] => .ok (.inr ()) state
      | token :: rest =>
        if depth = 0 && (token.kind.startsDeclaration || token.kind = .bracketOpen) then
          .ok (.inr ()) state
        else if token.kind = .braceOpen then .ok (.inl (depth + 1)) { state with tokens := rest }
        else if token.kind = .braceClose then
          if depth ≤ 1 then
            .ok (.inr ())
              { state with
                tokens := match rest with
                  | [] => []
                  | closing :: others =>
                    if closing.kind = .semicolon then others else closing :: others }
          else .ok (.inl (depth - 1)) { state with tokens := rest }
        else .ok (.inl depth) { state with tokens := rest } := by
  simp only [skipDeclarationRound, Bind.bind, EStateM.bind, get_run]
  cases tokens : state.tokens with
  | nil => rfl
  | cons token rest =>
      simp only
      split
      · rfl
      · simp only [EStateM.bind, next_run, tokens, List.tail_cons]
        split
        · rfl
        · split
          · split
            · cases rest with
              | nil => rfl
              | cons closing others =>
                  simp only [eat, Bind.bind, EStateM.bind, peek_run, ahead, List.headD_cons]
                  by_cases isSemicolon : closing.kind = .semicolon <;>
                    simp only [isSemicolon, if_true, if_false] <;> rfl
            · rfl
          · rfl

theorem skipDeclaration_rounds (depth : Nat) (state : ParseState) {count : Nat}
    (enough : state.tokens.length < count) :
    ∃ rounds, loopWithin (round skipDeclarationRound) count depth state =
      .ok () { state with tokens := afterDeclaration depth state.tokens, rounds := rounds } := by
  induction count generalizing depth state with
  | zero => exact absurd enough (Nat.not_lt_zero _)
  | succ count ih =>
      have step : round skipDeclarationRound depth state = _ :=
        skipDeclarationRound_run depth state.counted
      cases tokens : state.tokens with
      | nil =>
          simp only [ParseState.counted, tokens] at step
          exact ⟨_, loopWithin_done count step⟩
      | cons token rest =>
          simp only [ParseState.counted, tokens] at step
          rw [tokens, List.length_cons] at enough
          have fewer : rest.length < count := by omega
          rw [afterDeclaration.eq_def]
          simp only
          split at step
          · exact ⟨_, by rw [loopWithin_done count step, if_pos ‹_›]⟩
          · rw [if_neg ‹_›]
            split at step
            · rw [if_pos ‹_›, loopWithin_more count step]
              exact ih _ _ fewer
            · rw [if_neg ‹_›]
              split at step
              · rw [if_pos ‹_›]
                split at step
                · exact ⟨_, by rw [loopWithin_done count step, if_pos ‹_›]⟩
                · rw [if_neg ‹_›, loopWithin_more count step]
                  exact ih _ _ fewer
              · rw [if_neg ‹_›, loopWithin_more count step]
                exact ih _ _ fewer

theorem recoverDeclaration_run (state : ParseState) :
    ∃ rounds, recoverDeclaration state =
      .ok () { state with tokens := afterDeclaration 0 state.tokens, rounds := rounds } :=
  skipDeclaration_rounds 0 state (Nat.lt_succ_self _)

/-- A run that only takes tokens, where a clean run never comes. -/
theorem Ensures.skip {production : Parse Unit} {tokens : List Token} {rounds : Nat}
    (run : production before = .ok () { before with tokens := tokens, rounds := rounds })
    (suffix : tokens <:+ before.tokens) (impossible : known → False) :
    Ensures mark known before production fun _ _ => False := by
  intro _
  rw [run]
  exact ⟨.of_tokens before suffix, fun _ assumed _ => (impossible assumed).elim⟩

/-- Going on behind a broken statement, which a clean run never does. -/
theorem Ensures.recoverStatement (impossible : known → False) :
    Ensures mark known before recoverStatement fun _ _ => False := by
  obtain ⟨rounds, run⟩ := recoverStatement_run before
  exact skip run (afterStatement_suffix _) impossible

theorem Ensures.recoverDeclaration (impossible : known → False) :
    Ensures mark known before recoverDeclaration fun _ _ => False := by
  obtain ⟨rounds, run⟩ := recoverDeclaration_run before
  exact skip run (afterDeclaration_suffix _ _) impossible

end DriverIdl.Parse
