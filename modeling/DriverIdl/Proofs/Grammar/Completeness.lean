import DriverIdl.Proofs.Grammar.Passing
import DriverIdl.Proofs.Grammar.Words
import DriverIdl.Proofs.Parsing.SourceFile

/-!
# Files of the grammar have no fault of tokens or grammar

Each production passes over its part of the grammar.  A type expression may leave anywhere; a member
or method then leaves in front of its semicolon, and an enum in front of its closing brace, so that
recovery goes on right behind it.
-/

namespace DriverIdl

namespace Parse

namespace Passes

open Computability ParseState Grammar

variable {α β σ : Type} {before : ParseState} {options : Options}
  {part more stuck integers : TokenLanguage} {follow : List TokenKind → Prop} {post : α → Prop}

section Tokens

variable {kind : TokenKind} {kinds : List TokenKind} {expected : String}

theorem kind_ahead (state : ParseState) : (ahead state).kind = state.kinds.headD .eof := by
  rw [ahead, kinds]
  cases state.tokens <;> rfl

/-- A production may look at the kind of the token ahead. -/
theorem looking {production : Parse α} (heads : TokenKind → Prop)
    (starts : ∀ text ∈ part, ∀ rest, follow rest → heads ((text ++ rest).headD .eof))
    (passes : heads (ahead before).kind → Passes before production part follow post stuck) :
    Passes before production part follow post stuck := by
  intro text rest ofPart follows isAhead
  have head : heads (ahead before).kind := by
    rw [kind_ahead, isAhead]
    exact starts text ofPart rest follows
  exact passes head text rest ofPart follows isAhead

/-- A production that looks at the first word of its part. -/
theorem bindPeek {rest : Token → Parse α} {kinds : List TokenKind} (starts : StartsIn kinds part)
    (goesOn : (ahead before).kind ∈ kinds →
      Passes before (rest (ahead before)) part follow post stuck) :
    Passes before (peek >>= rest) part follow post stuck := by
  apply looking (· ∈ kinds)
  · intro text ofPart behind _
    exact starts.headD_mem ofPart
  · intro listed
    exact bindOk (peek_run before) (goesOn listed)

/-- One token of some kinds. -/
theorem next : Passes before next (anyOf kinds) follow (fun token => token.kind ∈ kinds) stuck := by
  rintro text rest ⟨kind, listed, rfl⟩ - isAhead
  have head := kind_ahead before
  rw [next_run]
  refine ⟨.of_eq rfl, ?_, ?_⟩
  · simp only [ParseState.kinds, List.map_tail] at isAhead ⊢
    rw [isAhead]
    rfl
  · show (ahead before).kind ∈ kinds
    rw [head, isAhead]
    exact listed

/-- One token of a kind. -/
theorem nextWord : Passes before Parse.next (word kind) follow (fun token => token.kind = kind)
    stuck := by
  rw [← anyOf_singleton]
  exact next.imp (fun _ listed => List.mem_singleton.mp listed) le_rfl

theorem expect : Passes before (expect kind expected) (word kind) follow
    (fun token => token.kind = kind) stuck := by
  apply looking (· = kind)
  · rintro text rfl rest -
    rfl
  · intro isKind
    apply bindOk (peek_run before)
    rw [if_pos isKind]
    exact nextWord

theorem eatTaken {rest : Bool → Parse α}
    (goesOn : ∀ state, Passes state (rest true) part follow post stuck) :
    Passes before (eat kind >>= rest) (word kind * part) follow post stuck := by
  have taken : Passes before (Parse.eat kind) (word kind) (fun _ => True) (· = true) 0 := by
    apply looking (· = kind)
    · rintro text rfl rest -
      rfl
    · intro isKind
      apply bindOk (peek_run before)
      rw [if_pos isKind]
      exact last nextWord fun _ _ _ => pure rfl
  apply seq taken
  rintro value state rfl
  exact goesOn state

theorem eatMissing {rest : Bool → Parse α}
    (avoids : ∀ text ∈ part, ∀ behind, follow behind → Avoids [kind] (text ++ behind))
    (goesOn : Passes before (rest false) part follow post stuck) :
    Passes before (eat kind >>= rest) part follow post stuck := by
  apply looking (· ∉ [kind])
  · exact avoids
  · intro different
    have missing : Parse.eat kind before = .ok false before := by
      simp only [Parse.eat, Bind.bind, EStateM.bind, peek_run]
      rw [if_neg (by simpa using different)]
      rfl
    exact bindOk missing goesOn

/-- A token that may be left out, where nothing else is taken behind it. -/
theorem eatLast {rest : Bool → Parse α}
    (goesOn : ∀ taken state, Passes state (rest taken) 1 (Avoids [kind]) post stuck) :
    Passes before (Parse.eat kind >>= rest) (optional (word kind)) (Avoids [kind]) post stuck := by
  apply either
  · exact eatMissing avoids_of_one (goesOn false before)
  · rw [← mul_one (word kind)]
    exact eatTaken (goesOn true)

theorem dottedTail (first : String) :
    Passes before (dottedTail first) (word .dot * word .identifier)∗ (Avoids [.dot])
      (fun _ => True) 0 := by
  rw [← mul_one (_∗)]
  apply loop (fun _ => True) (StartsIn.ofWord .dot).mul.nil_notMem _ _ (fun _ _ _ _ => trivial)
    (by simp)
  · intro name state
    apply eatTaken
    intro dotted
    exact last expect fun segment named _ => pure rfl
  · intro name state
    exact eatMissing avoids_of_one (pure rfl)

theorem dottedName (expected : String) :
    Passes before (dottedName expected) dotted (Avoids [.dot]) (fun _ => True) 0 := by
  apply seq expect
  intro first named _
  exact last (dottedTail first.text) fun name state _ => pure trivial

theorem announcement {keyword : TokenKind} {spelling : String} :
    Passes before (announcement keyword spelling expected) (Grammar.announcement keyword) follow
      (fun _ => True) stuck := by
  rw [Grammar.announcement, mul_assoc]
  apply seq expect
  intro _ worded _
  apply bind (dottedName expected)
  · intro named read _ _
    exact last expect fun _ closed _ => pure trivial
  · exact (StartsIn.ofWord _).avoids (by decide)
  · simp

end Tokens

section Types

theorem intern {key : TypeKey} {node : TypeNode} :
    Passes before (intern key node) 1 follow (fun _ => True) stuck := by
  rintro text rest rfl - isAhead
  rcases intern_cases key node before with ⟨id, -, run⟩ | ⟨-, run⟩
  · rw [run]
    exact ⟨.of_eq rfl, isAhead, trivial⟩
  · rw [run]
    exact ⟨.of_eq rfl, isAhead, trivial⟩

theorem checkElement (type : TypeId) (place : Position) :
    Passes before (checkElement type place) 1 follow (fun _ => True) ⊤ := by
  apply bindOk (types_run before)
  split
  · exact fail rfl le_top
  · exact pure trivial

theorem checkSupport (type : TypeId) (place : Position) :
    Passes before (checkSupport options type place) 1 follow (fun _ => True) ⊤ := by
  apply bindOk (types_run before)
  split
  · exact fail rfl le_top
  · exact pure trivial

theorem unsignedType :
    Passes before unsignedType (anyOf unsignedWords) follow (fun _ => True) stuck := by
  apply last next
  intro token state listed
  cases found : token.kind
  case char | byte | short | int | long => exact pure trivial
  all_goals
    rw [found] at listed
    exact absurd listed (by decide)

/-- What must not stand behind a type. -/
abbrev BehindType : List TokenKind → Prop := Avoids [.dot, .bracketOpen]

section Containers

variable {typeExpression : Parse TypeId}

theorem elementType
    (passes : Passes before typeExpression type BehindType (fun _ => True) ⊤) :
    Passes before (elementType typeExpression) type BehindType (fun _ => True) ⊤ := by
  apply bindOk (peek_run before)
  apply last passes
  intro type state _
  apply last (checkElement type _)
  intro _ after _
  exact pure trivial

theorem length_le_of_taken {state : ParseState}
    (taken : ∃ text ∈ part, before.kinds = text ++ state.kinds) :
    state.kinds.length ≤ before.kinds.length := by
  obtain ⟨text, -, split⟩ := taken
  rw [split, List.length_append]
  exact Nat.le_add_left _ _

variable (passes : ∀ state, state.kinds.length ≤ before.kinds.length →
  Passes state typeExpression type BehindType (fun _ => True) ⊤)

include passes

/-- A type between words, and what is taken behind it. -/
theorem between {opening closing : TokenKind} {expected : String} {rest : TypeId → Parse α}
    (goesOn : ∀ element state, state.kinds.length ≤ before.kinds.length →
      Passes state (rest element) (word closing * more) follow post ⊤)
    (apart : closing ∉ [TokenKind.dot, .bracketOpen]) :
    Passes before
      (do
        let _ ← Parse.expect opening expected
        let element ← Parse.elementType typeExpression
        rest element)
      (word opening * (type * (word closing * more))) follow post ⊤ := by
  have opens : Passes before (Parse.expect opening expected) (word opening) (fun _ => True) _ 0 :=
    expect
  apply bind opens _ (fun _ _ _ _ => trivial) le_top
  intro _ opened _ taken
  have fewer := length_le_of_taken taken
  apply bind (elementType (passes opened fewer)) _ _ le_top
  · intro element read _ takenElement
    exact goesOn element read ((length_le_of_taken takenElement).trans fewer)
  · exact (StartsIn.ofWord closing).mul.avoids (by simpa using apart)

theorem listType : Passes before (listType typeExpression)
    (word .angleOpen * (type * word .angleClose)) follow (fun _ => True) ⊤ := by
  rw [← mul_one (word .angleClose)]
  apply between passes _ (by decide)
  intro element read _
  rw [mul_one]
  exact last expect fun _ closed _ => intern

theorem mapType : Passes before (mapType typeExpression)
    (word .angleOpen * (type * (word .comma * (type * word .angleClose)))) follow (fun _ => True)
      ⊤ := by
  apply between passes _ (by decide)
  intro key keyed fewer
  rw [← mul_one (word .angleClose)]
  apply between (fun state shorter => passes state (shorter.trans fewer)) _ (by decide)
  intro value valued _
  rw [mul_one]
  exact last expect fun _ closed _ => intern

theorem queueType (place : Position) : Passes before (queueType typeExpression place)
    (word .angleOpen * (type * word .angleClose)) follow (fun _ => True) ⊤ := by
  rw [← mul_one (word .angleClose)]
  apply between passes _ (by decide)
  intro element read _
  rw [mul_one]
  apply last expect
  intro _ closed _
  apply bindOk (types_run closed)
  exact failIf rfl le_top intern

end Containers

theorem namedType (first : Token) : Passes before (namedType first)
    (word .dot * word .identifier)∗ (Avoids [.dot]) (fun _ => True) ⊤ := by
  apply last ((dottedTail first.text).imp (fun _ holds => holds) bot_le)
  intro name state _
  apply bindOk (get_run state)
  split
  · exact pure trivial
  · exact fail rfl le_top

theorem arraySuffix (base : TypeId) (place : Position) :
    Passes before (arraySuffix base place) brackets∗ BehindType (fun _ => True) ⊤ := by
  rw [← mul_one (_∗)]
  apply loop (fun _ => True) (StartsIn.ofWord .bracketOpen).mul.nil_notMem _ _
    (fun _ _ _ _ => trivial) le_top
  · intro type state
    apply eatTaken
    intro opened
    apply last expect
    intro _ closed _
    apply last (checkElement type place)
    intro _ checked _
    apply last intern
    intro id after _
    exact pure rfl
  · intro type state
    apply eatMissing
    · intro text isNone rest avoids
      exact (avoids_of_one text isNone rest avoids).mono (by decide)
    · exact pure rfl

theorem primitiveType {typeExpression : Parse TypeId} {token : Token}
    (listed : token.kind ∈ primitiveWords) :
    Passes before (baseType typeExpression token) 1 (Avoids [.dot]) (fun _ => True) ⊤ := by
  unfold baseType
  cases found : token.kind
  case boolean | byte | char | short | int | long | float | double | string | fileDescriptor =>
    exact pure trivial
  all_goals
    rw [found] at listed
    exact absurd listed (by decide)

section Alternatives

variable {depth : Nat} (enough : before.kinds.length < depth + 1)

include enough

/-- A type that starts with one of some words: they choose what is read behind them. -/
theorem typeAlternative {kinds : List TokenKind}
    (inner : ∀ token state, token.kind ∈ kinds → state.kinds.length < depth →
      Passes state (baseType (typeWithin options depth) token) more (Avoids [.dot])
        (fun _ => True) ⊤) :
    Passes before (typeWithin options (depth + 1)) (anyOf kinds * more * brackets∗) BehindType
      (fun _ => True) ⊤ := by
  rw [mul_assoc]
  have takes : Passes before Parse.next (anyOf kinds) (fun _ => True) _ 0 := next
  apply bind takes _ (fun _ _ _ _ => trivial) le_top
  rintro token state listed ⟨text, ⟨kind, -, rfl⟩, split⟩
  have fewer : state.kinds.length < depth := by
    rw [split, List.length_append, List.length_singleton] at enough
    omega
  apply bind (inner token state listed fewer) _ _ le_top
  · intro base based _ _
    apply last (arraySuffix base token.place)
    intro type suffixed _
    apply last (checkSupport type token.place)
    intro _ checked _
    exact pure trivial
  · intro text isSuffix rest avoids
    exact (StartsIn.ofWord .bracketOpen).mul.avoids_kstar (by decide) text isSuffix rest
      (avoids.mono (by decide))

theorem typeWord {kind : TokenKind}
    (inner : ∀ token state, token.kind = kind → state.kinds.length < depth →
      Passes state (baseType (typeWithin options depth) token) more (Avoids [.dot])
        (fun _ => True) ⊤) :
    Passes before (typeWithin options (depth + 1)) (word kind * more * brackets∗) BehindType
      (fun _ => True) ⊤ := by
  rw [← anyOf_singleton]
  exact typeAlternative enough fun token state listed =>
    inner token state (List.mem_singleton.mp listed)

end Alternatives

/-- Each level of containers takes a token, so a depth above the number of tokens is never
reached. -/
theorem typeWithin (depth : Nat) (enough : before.kinds.length < depth) :
    Passes before (typeWithin options depth) type BehindType (fun _ => True) ⊤ := by
  induction depth generalizing before with
  | zero => exact absurd enough (Nat.not_lt_zero _)
  | succ depth ih =>
      have inside {state : ParseState} (fewer : state.kinds.length < depth) (inner : ParseState)
          (shorter : inner.kinds.length ≤ state.kinds.length) :
          Passes inner (Parse.typeWithin options depth) type BehindType (fun _ => True) ⊤ :=
        ih (Nat.lt_of_le_of_lt shorter fewer)
      rw [type_eq]
      apply mono _ (mul_le_mul_left base_le _)
      simp only [add_mul]
      refine either (either (either (either (either ?_ ?_) ?_) ?_) ?_) ?_
      · rw [← mul_one (anyOf primitiveWords)]
        exact typeAlternative enough fun token state listed _ => primitiveType listed
      · apply typeWord enough
        intro token state isUnsigned _
        rw [baseType, isUnsigned]
        exact unsignedType
      · apply typeWord enough
        intro token state isList fewer
        rw [baseType, isList]
        exact listType (inside fewer)
      · rw [container, mul_assoc type, mul_assoc (word .comma)]
        apply typeWord enough
        intro token state isMap fewer
        rw [baseType, isMap]
        exact mapType (inside fewer)
      · apply typeWord enough
        intro token state isQueue fewer
        rw [baseType, isQueue]
        exact queueType (inside fewer) token.place
      · apply typeWord enough
        intro token state isName fewer
        rw [baseType, isName]
        exact namedType token

theorem typeExpression :
    Passes before (typeExpression options) type BehindType (fun _ => True) ⊤ := by
  apply bindOk (get_run before)
  apply typeWithin
  simp [ParseState.kinds]

end Types

section Attributes

theorem oneAttribute (found : Attributes) :
    Passes before (oneAttribute found) (anyOf attributeWords) follow (fun _ => True) stuck := by
  apply last next
  intro token state listed
  cases slot : attributeSlot? token.kind with
  | none =>
      cases kind : token.kind <;> rw [kind] at listed slot <;>
        first | exact absurd listed (by decide) | cases slot
  | some setter =>
      match setter with
      | none => exact last (report rfl) fun _ _ _ => pure trivial
      | some (isSet, set) =>
          apply ite
          · exact fun _ => last (report rfl) fun _ _ _ => pure trivial
          · exact fun _ => pure trivial

/-- Items with commas between them, behind the last of which something else stands. -/
theorem separated {step : σ → Parse (σ ⊕ α)} {start : σ} {item closing : TokenLanguage}
    (notEmpty : [] ∉ item)
    (round : ∀ current state, Passes state (step current) (item * word .comma) (fun _ => True)
      (fun result => result.isLeft = true) stuck)
    (ends : ∀ current state, Passes state (step current) (item * closing) (fun _ => True)
      (fun result => result.isRight = true) stuck)
    (widen : stuck * (separated item * closing) ≤ stuck) :
    Passes before (Parse.loop step start) (Grammar.separated item * closing) (fun _ => True)
      (fun _ => True) stuck := by
  rw [separated_eq, mul_assoc] at widen ⊢
  apply loop (fun _ => True) _ round ends (fun _ _ _ _ => trivial) widen
  rw [nil_mem_mul]
  exact fun both => notEmpty both.1

theorem attributes :
    Passes before attributes Grammar.attributes (fun _ => True) (fun _ => True) 0 := by
  rw [Grammar.attributes, mul_assoc]
  apply seq expect
  intro opening opened _
  apply last
  · apply separated
    · simp
    · intro found state
      apply seq (oneAttribute found)
      intro extended read _
      apply last nextWord
      intro token behind isComma
      rw [isComma]
      exact pure rfl
    · intro found state
      apply seq (oneAttribute found)
      intro extended read _
      apply last nextWord
      intro token behind isClose
      rw [isClose]
      exact pure rfl
    · simp
  · intro found read _
    apply reportIf rfl
    intro state
    exact pure trivial

theorem optionalAttributes :
    Passes before optionalAttributes (optional Grammar.attributes) (Avoids [.bracketOpen])
      (fun _ => True) 0 := by
  apply either
  · apply looking (· ∉ [.bracketOpen]) avoids_of_one
    intro different
    apply bindOk (peek_run before)
    rw [if_neg (by simpa using different)]
    exact pure trivial
  · apply looking (· ∈ [.bracketOpen])
    · intro text isAttributes rest _
      have starts : StartsIn [.bracketOpen] Grammar.attributes := (StartsIn.ofWord _).mul.mul
      exact starts.headD_mem isAttributes
    · intro isOpen
      apply bindOk (peek_run before)
      rw [if_pos (by simpa using isOpen)]
      exact attributes.followedBy fun _ _ => trivial

end Attributes

section Recovery

/-- A word that a broken statement goes on over. -/
def staysInStatement (kind : TokenKind) : Bool :=
  !(kind == .braceClose || kind.startsDeclaration || kind == .semicolon)

/-- A statement that ends in its semicolon. -/
def statement : TokenLanguage := madeOf staysInStatement * word .semicolon

theorem afterStatement_kinds {tokens : List Token} {skipped rest : List TokenKind}
    (stays : skipped ∈ madeOf staysInStatement)
    (split : tokens.map Token.kind = skipped ++ .semicolon :: rest) :
    (afterStatement tokens).map Token.kind = rest := by
  induction tokens generalizing skipped with
  | nil => simp at split
  | cons token tokens ih =>
      rw [afterStatement]
      cases skipped with
      | nil =>
          obtain ⟨isSemicolon, behind⟩ := List.cons_eq_cons.mp split
          simpa [isSemicolon, TokenKind.startsDeclaration] using behind
      | cons kind skipped =>
          obtain ⟨rfl, behind⟩ := List.cons_eq_cons.mp split
          have inside : staysInStatement token.kind = true := stays _ (by simp)
          simp only [staysInStatement, Bool.not_eq_true', Bool.or_eq_false_iff, beq_eq_false_iff_ne]
            at inside
          obtain ⟨⟨notBrace, notWord⟩, notSemicolon⟩ := inside
          rw [if_neg (by simp [notBrace, notWord]), if_neg notSemicolon]
          exact ih (fun kind listed => stays kind (List.mem_cons_of_mem _ listed)) behind

theorem recoverStatement :
    Passes before recoverStatement statement follow (fun _ => True) stuck := by
  intro text rest isStatement _ isAhead
  obtain ⟨skipped, stays, _, rfl, rfl⟩ := Language.mem_mul.mp isStatement
  obtain ⟨rounds, run⟩ := recoverStatement_run before
  rw [run]
  refine ⟨.of_eq rfl, afterStatement_kinds stays ?_, trivial⟩
  rw [kinds] at isAhead
  rw [isAhead, List.append_assoc]
  rfl

/-- A word that a broken declaration goes on over. -/
def staysInDeclaration (kind : TokenKind) : Bool :=
  !(kind.startsDeclaration || kind == .bracketOpen || kind == .braceOpen || kind == .braceClose)

/-- The rest of a declaration that has no bracket, from the front of its body or from inside it. -/
def restOfDeclaration : TokenLanguage :=
  madeOf staysInDeclaration * (optional (word .braceOpen * madeOf staysInDeclaration) *
    (word .braceClose * optional (word .semicolon)))

/-- Words in front of a brace are gone over at any depth. -/
theorem afterDeclaration_append {skipped others : List Token} (depth : Nat)
    (stays : skipped.map Token.kind ∈ madeOf staysInDeclaration) :
    afterDeclaration depth (skipped ++ others) = afterDeclaration depth others := by
  induction skipped with
  | nil => rfl
  | cons token skipped ih =>
      have inside : staysInDeclaration token.kind = true := stays _ (by simp)
      simp only [staysInDeclaration, Bool.not_eq_true', Bool.or_eq_false_iff, beq_eq_false_iff_ne]
        at inside
      obtain ⟨⟨⟨notWord, notBracket⟩, notOpen⟩, notClose⟩ := inside
      rw [List.cons_append, afterDeclaration.eq_def]
      simp only
      rw [if_neg (by simp [notWord, notBracket]), if_neg notOpen, if_neg notClose]
      exact ih fun kind listed => stays kind (List.mem_cons_of_mem _ listed)

/-- The brace that closes a body ends the declaration, with a semicolon behind it or without. -/
theorem afterDeclaration_close {brace : Token} {others : List Token} {closing rest : List TokenKind}
    {depth : Nat} (isBrace : brace.kind = .braceClose) (shallow : depth ≤ 1)
    (isClosing : closing ∈ optional (word .semicolon)) (follows : Avoids [.semicolon] rest)
    (split : others.map Token.kind = closing ++ rest) :
    (afterDeclaration depth (brace :: others)).map Token.kind = rest := by
  rw [afterDeclaration.eq_def]
  simp only
  rw [if_neg (by simp [isBrace, TokenKind.startsDeclaration]), if_neg (by simp [isBrace]),
    if_pos isBrace, if_pos shallow]
  cases others with
  | nil =>
      obtain ⟨rfl, rfl⟩ := List.append_eq_nil_iff.mp split.symm
      rfl
  | cons first others =>
      rcases isClosing with rfl | rfl
      · have notSemicolon : first.kind ≠ .semicolon := by
          rintro isSemicolon
          apply follows
          rw [← List.nil_append rest, ← split]
          simp [isSemicolon]
        simp only [if_neg notSemicolon]
        exact split
      · obtain ⟨isSemicolon, behind⟩ := List.cons_eq_cons.mp split
        simp only [if_pos isSemicolon]
        exact behind

theorem recoverDeclaration :
    Passes before recoverDeclaration restOfDeclaration (Avoids [.semicolon]) (fun _ => True)
      stuck := by
  intro text rest isRest follows isAhead
  obtain ⟨rounds, run⟩ := recoverDeclaration_run before
  rw [run]
  refine ⟨.of_eq rfl, ?_, trivial⟩
  show (afterDeclaration 0 before.tokens).map Token.kind = rest
  obtain ⟨early, stays, others, isOthers, rfl⟩ := Language.mem_mul.mp isRest
  obtain ⟨body, isBody, ending, isEnding, rfl⟩ := Language.mem_mul.mp isOthers
  obtain ⟨_, rfl, closing, isClosing, rfl⟩ := Language.mem_mul.mp isEnding
  have split : before.tokens.map Token.kind =
      early ++ (body ++ (.braceClose :: (closing ++ rest))) := by
    rw [← kinds, isAhead]
    simp
  obtain ⟨skipped, inBody, tokens, rfl, behind⟩ := List.map_eq_append_iff.mp split
  rw [tokens, afterDeclaration_append 0 stays]
  -- From inside the body its closing brace is met at depth zero, from its front at depth one.
  rcases isBody with rfl | isBody
  · obtain ⟨brace, others, rfl, isBrace, split⟩ := List.map_eq_cons_iff.mp behind
    exact afterDeclaration_close isBrace (Nat.zero_le _) isClosing follows split
  · obtain ⟨_, rfl, inner, staysInner, rfl⟩ := Language.mem_mul.mp isBody
    obtain ⟨brace, others, rfl, isBrace, split⟩ := List.map_eq_cons_iff.mp behind
    obtain ⟨members, closed, rfl, rfl, atEnd⟩ := List.map_eq_append_iff.mp split
    obtain ⟨last, others, rfl, isLast, split⟩ := List.map_eq_cons_iff.mp atEnd
    rw [afterDeclaration.eq_def]
    simp only
    rw [if_neg (by simp [isBrace, TokenKind.startsDeclaration]), if_pos isBrace,
      afterDeclaration_append 1 staysInner]
    exact afterDeclaration_close isLast (Nat.le_refl _) isClosing follows split

end Recovery

section Enums

theorem checkTypeAttributes (declaration : String) (found : Attributes) (place : Position) :
    Passes before (checkTypeAttributes declaration found place) 1 follow (fun _ => True) stuck := by
  apply ite
  · exact fun _ => report rfl
  · exact fun _ => pure trivial

theorem checkNewName (name : String) (place : Position) :
    Passes before (checkNewName name place) 1 follow (fun _ => True) stuck := by
  apply bindOk (get_run before)
  apply ite
  · exact fun _ => last (report rfl) fun _ _ _ => pure trivial
  · exact fun _ => pure trivial

theorem enumBase (arePlain : integers ≤ plainType) :
    Passes before (enumBase options) (Grammar.enumBase integers)
      (Avoids [.dot, .bracketOpen, .colon]) (fun _ => True) ⊤ := by
  apply either
  · apply eatMissing
    · intro text isNone rest avoids
      exact (avoids_of_one text isNone rest avoids).mono (by decide)
    · exact pure trivial
  · apply eatTaken
    intro state
    apply bindOk (peek_run state)
    have reads : Passes state (Parse.typeExpression options) integers
        (Avoids [.dot, .bracketOpen, .colon]) _ ⊤ :=
      (typeExpression.mono (arePlain.trans plainType_le_type)).followedBy fun _ avoids => avoids.mono (by decide)
    apply last reads
    intro type read _
    apply bindOk (types_run read)
    split
    · exact pure trivial
    · exact last (report rfl) fun _ _ _ => pure trivial

theorem enumValue (members : List EnumMember) :
    Passes before (enumValue members) Grammar.enumValue follow (fun _ => True) ⊤ := by
  rw [Grammar.enumValue, Grammar.optional, add_mul, one_mul]
  refine either (either (eatMissing ?_ ?_) (eatTaken fun _ => ?_)) (eatMissing ?_ ?_)
  case refine_1 | refine_4 => exact (StartsIn.ofWord _).avoids (by decide)
  case refine_2 | refine_3 =>
    apply last nextWord
    intro token taken isNumber
    rw [isNumber]
    simp only
    split
    · exact pure trivial
    · exact fail rfl le_top
  case refine_5 =>
    apply last nextWord
    intro token taken isName
    rw [isName]
    simp only [Bool.false_eq_true, if_false]
    split
    · exact pure trivial
    · exact fail rfl le_top

/-- A body goes on with a word that neither ends it nor starts a declaration. -/
theorem checkBodyGoesOn {token : Token} {kinds : List TokenKind} (listed : token.kind ∈ kinds)
    (inside : ∀ kind ∈ kinds, kind ≠ .eof ∧ kind.startsDeclaration = false) :
    Passes before (checkBodyGoesOn token) 1 follow (fun _ => True) stuck := by
  obtain ⟨notEnd, notWord⟩ := inside _ listed
  unfold Parse.checkBodyGoesOn
  rw [if_neg (by simp [notEnd, notWord])]
  exact pure trivial

/-- A member of an enum, and what tells whether more members come. -/
theorem enumMember {base : Primitive} {members : List EnumMember} {following : Int}
    {ending : TokenLanguage} {post : List EnumMember × Int × Bool → Prop}
    (avoids : ∀ text ∈ ending, ∀ rest, follow rest → Avoids [.assign] (text ++ rest))
    (ends : ∀ extended after state, Passes state (do
      return ((extended : List EnumMember), (after : Int), ← eat .comma)) ending follow post ⊤) :
    Passes before (enumMember base members following) (Grammar.enumMember * ending) follow post
      ⊤ := by
  rw [Grammar.enumMember, Grammar.optional, mul_assoc, add_mul, one_mul, mul_assoc]
  apply seq expect
  intro name named _
  apply either
  · apply eatMissing avoids
    apply bindOk rfl
    apply reportIf rfl
    intro checked
    apply ite
    · intro _
      apply skip (report rfl)
      intro _ reported _
      exact bindOk rfl (ends _ _ _)
    · intro _
      exact bindOk rfl (ends _ _ _)
  · apply eatTaken
    intro state
    apply seqTop (enumValue members)
    intro value valued _
    apply reportIf rfl
    intro checked
    apply ite
    · intro _
      apply skip (report rfl)
      intro _ reported _
      exact bindOk rfl (ends _ _ _)
    · intro _
      exact bindOk rfl (ends _ _ _)

/-- The closing brace of a body is ahead. -/
def AtBrace (rest : List TokenKind) : Prop := rest.headD .eof = .braceClose

theorem atBrace_avoids {avoided : List TokenKind} (apart : .braceClose ∉ avoided) :
    ∀ text ∈ (1 : TokenLanguage), ∀ rest, AtBrace rest → Avoids avoided (text ++ rest) := by
  rintro text rfl rest (atBrace : rest.headD .eof = .braceClose)
  rw [List.nil_append, Avoids, atBrace]
  exact apart

theorem enumMembers (base : Primitive) :
    Passes before (enumMembers base) Grammar.enumMembers AtBrace (fun _ => True) ⊤ := by
  have starts : StartsIn [.identifier] Grammar.enumMember := (StartsIn.ofWord _).mul
  rw [Grammar.enumMembers, optional_separated_eq]
  apply loop (fun _ => True) starts.mul.nil_notMem _ _ (fun _ _ _ _ => trivial) le_top
  · rintro ⟨members, following⟩ state
    apply bindPeek starts.mul
    intro isName
    rw [if_neg (by simp [List.mem_singleton.mp isName])]
    apply skip (checkBodyGoesOn isName (by decide))
    intro _ checked _
    have reads : Passes checked (Parse.enumMember base members following)
        (Grammar.enumMember * word .comma) (fun _ => True) (fun result => result.2.2 = true) ⊤ := by
      apply enumMember ((StartsIn.ofWord _).avoids (by decide))
      intro extended after state
      rw [← mul_one (word .comma)]
      exact eatTaken fun _ => pure rfl
    apply last reads
    rintro ⟨extended, after, more⟩ read (rfl : more = true)
    exact pure rfl
  · rintro ⟨members, following⟩ state
    apply either
    · apply looking (· = .braceClose)
      · rintro text rfl rest atBrace
        exact atBrace
      · intro isBrace
        apply bindOk (peek_run state)
        rw [if_pos isBrace]
        exact pure rfl
    · apply bindPeek starts
      intro isName
      rw [if_neg (by simp [List.mem_singleton.mp isName])]
      apply skip (checkBodyGoesOn isName (by decide))
      intro _ checked _
      have reads : Passes checked (Parse.enumMember base members following)
          (Grammar.enumMember * 1) AtBrace (fun result => result.2.2 = false) ⊤ := by
        apply enumMember (atBrace_avoids (by decide))
        intro extended after state
        apply eatMissing (atBrace_avoids (by decide))
        exact pure rfl
      rw [mul_one] at reads
      apply last reads
      rintro ⟨extended, after, more⟩ read (rfl : more = false)
      exact pure rfl

theorem declare {name : String} {node : TypeNode} :
    Passes before (declare name node) 1 follow (fun _ => True) stuck := by
  apply bindOk (get_run before)
  apply last intern
  intro id interned _
  exact last (modify rfl rfl) fun _ listed _ => pure trivial

theorem enumBase_le (arePlain : integers ≤ plainType) :
    Grammar.enumBase integers ≤ madeOf staysInDeclaration := by
  apply optional_le_madeOf
  apply mul_le_madeOf (word_le_madeOf rfl)
  exact arePlain.trans (plainType_le_madeOf (by decide))

theorem enumMembers_le : Grammar.enumMembers ≤ madeOf staysInDeclaration := by
  have value : Grammar.enumValue ≤ madeOf staysInDeclaration := by
    apply add_le_madeOf _ (word_le_madeOf rfl)
    exact mul_le_madeOf (optional_le_madeOf (word_le_madeOf rfl)) (word_le_madeOf rfl)
  have member : Grammar.enumMember ≤ madeOf staysInDeclaration := by
    apply mul_le_madeOf (word_le_madeOf rfl)
    exact optional_le_madeOf (mul_le_madeOf (word_le_madeOf rfl) value)
  apply optional_le_madeOf
  exact mul_le_madeOf (separated_le_madeOf member rfl) (optional_le_madeOf (word_le_madeOf rfl))

/-- A production that may leave anywhere leaves nothing but words of its part. -/
theorem leavesWords {production : Parse α} {test : TokenKind → Bool}
    (passes : Passes before production part follow post ⊤) (words : part ≤ madeOf test) :
    Passes before production part follow post (madeOf test) :=
  passes.narrow le_rfl (fun _ follows => follows) fun _ ofPart _ _ suffix =>
    mem_madeOf_of_suffix (words ofPart) suffix

/-- What is left of an enum from inside its body. -/
theorem inBody_le : madeOf staysInDeclaration *
    (word .braceClose * optional (word .semicolon)) ≤ restOfDeclaration := by
  apply mul_le_mul_right
  exact le_mul_of_one_le_left' (one_le_optional _)

/-- What is left of an enum from the front of its body. -/
theorem beforeBody_le : madeOf staysInDeclaration * (word .braceOpen * (Grammar.enumMembers *
    (word .braceClose * optional (word .semicolon)))) ≤ restOfDeclaration := by
  unfold restOfDeclaration
  rw [← mul_assoc (word .braceOpen)]
  gcongr
  calc
    word .braceOpen * Grammar.enumMembers ≤ word .braceOpen * madeOf staysInDeclaration := by
      gcongr
      exact enumMembers_le
    _ ≤ optional (word .braceOpen * madeOf staysInDeclaration) := le_optional _

theorem enumDeclaration (arePlain : integers ≤ plainType) (found : Attributes) (place : Position) :
    Passes before (enumDeclaration options found place) (Grammar.enumDeclaration integers)
      (Avoids [.semicolon]) (fun _ => True) restOfDeclaration := by
  -- Only the base and the members can leave: words of theirs are left, then the body or its end.
  simp only [Grammar.enumDeclaration, mul_assoc]
  apply seq expect
  intro _ worded _
  apply skip (checkTypeAttributes "enum" found place)
  intro _ checked _
  apply seq expect
  intro name named _
  apply skip (checkNewName name.text name.place)
  intro fresh unchanged _
  apply bind ((enumBase arePlain).leavesWords (enumBase_le arePlain))
  · intro base based _ _
    apply seq expect
    intro _ opened _
    apply bind ((enumMembers base).leavesWords enumMembers_le)
    · intro members read _ _
      apply seq expect
      intro _ closed _
      apply eatLast
      intro _ ended
      apply reportIf rfl
      intro state
      apply ite
      · intro _
        apply bindOk (get_run state)
        exact last declare fun _ _ _ => pure trivial
      · exact fun _ => pure trivial
    · intro text isClosing rest _
      exact List.mem_singleton.mp ((StartsIn.ofWord .braceClose).mul.headD_mem isClosing)
    · exact inBody_le
  · exact (StartsIn.ofWord .braceOpen).mul.avoids (by decide)
  · exact beforeBody_le

end Enums

section Records

/-- Anything in front of a semicolon. -/
def toSemicolon : TokenLanguage := ⊤ * word .semicolon

/-- An end of a statement that has its semicolon is a statement. -/
theorem mem_statement_of_suffix {text left : List TokenKind} (isStatement : text ∈ statement)
    (toEnd : left ∈ toSemicolon) (suffix : left <:+ text) : left ∈ statement := by
  obtain ⟨words, stays, _, rfl, rfl⟩ := Language.mem_mul.mp isStatement
  obtain ⟨others, -, _, rfl, rfl⟩ := Language.mem_mul.mp toEnd
  obtain ⟨skipped, split⟩ := suffix
  rw [← List.append_assoc] at split
  have ends : others <:+ words := ⟨skipped, List.append_cancel_right split⟩
  exact Language.append_mem_mul (mem_madeOf_of_suffix stays ends) (mem_word.mpr rfl)

/-- The items of a body and its closing brace.  A broken item is an end of a statement, so that
recovery goes on with the next item. -/
theorem bodyItems {item : Parse α} {faultOf? : List α → α → Option (Position × SourceFault)}
    {kinds : List TokenKind} (starts : StartsIn kinds part)
    (inside : ∀ kind ∈ kinds, kind ≠ .braceClose ∧ kind ≠ .eof ∧ kind.startsDeclaration = false)
    (statements : part ≤ statement)
    (quiet : ∀ known found place fault, faultOf? known found = some (place, fault) →
      fault.isQuiet = true)
    (passes : ∀ state, Passes state item part (fun _ => True) (fun _ => True) toSemicolon) :
    Passes before (bodyItems item faultOf?) (part∗ * word .braceClose) follow (fun _ => True)
      0 := by
  apply loop (fun _ => True) starts.nil_notMem _ _ (fun _ _ _ _ => trivial) (by simp)
  · intro items state
    apply eatMissing
    · exact starts.avoids fun kind listed => by simpa using (inside kind listed).1
    · apply bindPeek starts
      intro listed
      apply skip (checkBodyGoesOn listed fun kind isKind => (inside kind isKind).2)
      intro _ checked _
      apply bindAttempt (passes checked)
      · intro text ofPart left toEnd suffix
        exact mem_statement_of_suffix (statements ofPart) toEnd suffix
      · intro found read _
        simp only
        split
        · rename_i place fault isFault
          exact last (report (quiet _ _ _ _ isFault)) fun _ _ _ => pure rfl
        · exact pure rfl
      · intro read
        exact last recoverStatement fun _ _ _ => pure rfl
  · intro items state
    rw [← mul_one (word .braceClose)]
    exact eatTaken fun _ => pure rfl

theorem recordMember (declaration : String) :
    Passes before (recordMember options declaration) Grammar.recordMember (fun _ => True)
      (fun _ => True) toSemicolon := by
  have ending : word .identifier * word .semicolon ≤ toSemicolon := mul_le_mul_left le_top _
  simp only [Grammar.recordMember, mul_assoc]
  apply bindOk (peek_run before)
  apply bind typeExpression
  · intro type read _ _
    apply bindOk (types_run read)
    split
    · exact fail rfl ending
    · apply seq expect
      intro name named _
      exact last expect fun _ closed _ => pure trivial
  · exact (StartsIn.ofWord .identifier).mul.avoids (by decide)
  · rw [← mul_assoc]
    exact mul_le_mul_left le_top _

theorem recordMember_le : Grammar.recordMember ≤ statement := by
  apply mul_le_mul_left
  exact mul_le_madeOf (type_le_madeOf (by decide)) (word_le_madeOf rfl)

theorem recordMembers (declaration : String) :
    Passes before (recordMembers options declaration) (Grammar.recordMember∗ * word .braceClose)
      follow (fun _ => True) 0 := by
  have starts : StartsIn typeStarts Grammar.recordMember := startsIn_type.mul.mul
  apply bodyItems starts (by decide) recordMember_le _ fun _ => recordMember declaration
  intro known found place fault isFault
  split at isFault
  · cases isFault
    rfl
  · cases isFault

theorem recordBody (declaration : String) (name : Token) (id : Option TypeId) :
    Passes before (recordBody options declaration name id)
      (word .braceOpen * (Grammar.recordMember∗ * (word .braceClose * optional (word .semicolon))))
      (Avoids [.semicolon]) (fun _ => True) stuck := by
  apply seq expect
  intro _ opened _
  rw [← mul_assoc]
  apply seq (recordMembers declaration)
  intro members read _
  apply eatLast
  intro _ closed
  apply reportIf rfl
  intro state
  split
  · exact modify rfl rfl
  · exact pure trivial

theorem recordDeclaration (found : Attributes) (place : Position) (isUnion : Bool) :
    Passes before (recordDeclaration options found place isUnion)
      (Grammar.recordDeclaration (if isUnion then .union else .struct)) (Avoids [.semicolon])
      (fun _ => True) stuck := by
  simp only [Grammar.recordDeclaration, mul_assoc]
  apply seq expect
  intro _ worded _
  apply skip (checkTypeAttributes _ found place)
  intro _ checked _
  apply seq expect
  intro name named _
  apply reportIf rfl
  intro reported
  apply skip (checkNewName name.text name.place)
  intro fresh state _
  apply bindOk (get_run state)
  apply ite
  · intro _
    apply skip (map declare)
    intro id declared _
    exact recordBody _ name id
  · intro _
    apply bindOk rfl
    exact recordBody _ name none

end Records

section Interfaces

theorem direction : Passes before direction Grammar.direction follow (fun _ => True) stuck := by
  simp only [Grammar.direction, mul_assoc]
  apply seq expect
  intro _ opened _
  apply seq next
  intro token state listed
  rcases List.mem_pair.mp listed with isIn | isOut
  · rw [isIn]
    apply bindOk rfl
    exact last expect fun _ _ _ => pure trivial
  · rw [isOut]
    apply bindOk rfl
    exact last expect fun _ _ _ => pure trivial

theorem checkInterfaceDirection (type : TypeId) (way : Direction) (place : Position) :
    Passes before (checkInterfaceDirection type way place) 1 follow (fun _ => True) stuck := by
  apply bindOk (types_run before)
  split
  · exact pure trivial
  · split
    · exact report rfl
    · exact report rfl
    · exact pure trivial

theorem parameter :
    Passes before (parameter options) Grammar.parameter follow (fun _ => True) ⊤ := by
  simp only [Grammar.parameter, mul_assoc]
  apply seq direction
  intro way directed _
  apply bind typeExpression
  · intro type read _ _
    apply last expect
    intro name named _
    exact last (checkInterfaceDirection type way name.place) fun _ _ _ => pure trivial
  · exact (StartsIn.ofWord .identifier).avoids (by decide)
  · exact le_top

theorem parameters : Passes before (parameters options)
    (optional (Grammar.separated Grammar.parameter) * word .parenClose) (fun _ => True)
      (fun _ => True) ⊤ := by
  have starts : StartsIn [.bracketOpen] Grammar.parameter := (StartsIn.ofWord _).mul.mul.mul.mul
  rw [Grammar.optional, add_mul, one_mul]
  apply either
  · rw [← mul_one (word .parenClose)]
    exact eatTaken fun _ => pure trivial
  · apply eatMissing (starts.mul.mul.avoids (by decide))
    apply separated starts.nil_notMem _ _ le_top
    · intro known state
      refine seqTop parameter fun found read _ =>
        ite (fun _ => skip (report rfl) fun _ reported _ => bindOk rfl ?_) fun _ => bindOk rfl ?_
      all_goals
        apply last nextWord
        intro token behind isComma
        rw [isComma]
        exact pure rfl
    · intro known state
      refine seqTop parameter fun found read _ =>
        ite (fun _ => skip (report rfl) fun _ reported _ => bindOk rfl ?_) fun _ => bindOk rfl ?_
      all_goals
        apply last nextWord
        intro token behind isClose
        rw [isClose]
        exact pure rfl

theorem method (interfaceAttributes : Attributes) :
    Passes before (method options interfaceAttributes) Grammar.method (fun _ => True)
      (fun _ => True) toSemicolon := by
  simp only [Grammar.method, mul_assoc]
  apply bind optionalAttributes
  · rintro ⟨found, place⟩ attributed _ _
    apply reportIf rfl
    intro accepted
    apply seq expect
    intro name named _
    apply seq expect
    intro _ opened _
    rw [← mul_assoc]
    apply bind parameters _ (fun _ _ _ _ => trivial) le_rfl
    intro all read _ _
    apply last expect
    intro _ closed _
    apply ite
    · intro _
      simp only
      split
      · exact last (report rfl) fun _ _ _ => pure trivial
      · exact pure trivial
    · exact fun _ => pure trivial
  · exact (StartsIn.ofWord .identifier).mul.avoids (by decide)
  · simp

theorem method_le : Grammar.method ≤ statement := by
  have attributes : Grammar.attributes ≤ madeOf staysInStatement := by
    refine mul_le_madeOf (mul_le_madeOf (word_le_madeOf rfl) ?_) (word_le_madeOf rfl)
    exact separated_le_madeOf (anyOf_le_madeOf (by decide)) rfl
  have direction : Grammar.direction ≤ madeOf staysInStatement := by
    refine mul_le_madeOf (mul_le_madeOf (word_le_madeOf rfl) ?_) (word_le_madeOf rfl)
    exact anyOf_le_madeOf (by decide)
  have parameter : Grammar.parameter ≤ madeOf staysInStatement :=
    mul_le_madeOf (mul_le_madeOf direction (type_le_madeOf (by decide))) (word_le_madeOf rfl)
  apply mul_le_mul_left
  refine mul_le_madeOf (mul_le_madeOf (mul_le_madeOf (mul_le_madeOf
    (optional_le_madeOf attributes) ?_) ?_) ?_) ?_
  · exact word_le_madeOf rfl
  · exact word_le_madeOf rfl
  · exact optional_le_madeOf (separated_le_madeOf parameter rfl)
  · exact word_le_madeOf rfl

theorem methods (interfaceAttributes : Attributes) :
    Passes before (methods options interfaceAttributes) (Grammar.method∗ * word .braceClose) follow
      (fun _ => True) 0 := by
  have starts : StartsIn [.bracketOpen, .identifier] Grammar.method := by
    simp only [Grammar.method, mul_assoc]
    exact .optional_mul (.mul (.mul (.word (by decide)))) (.mul (.word (by decide)))
  apply bodyItems starts (by decide) method_le _ fun _ => method interfaceAttributes
  intro known found place fault isFault
  split at isFault
  · cases isFault
    rfl
  · split at isFault
    · cases isFault
      rfl
    · cases isFault

theorem interfaceDeclaration (found : Attributes) :
    Passes before (interfaceDeclaration options found) Grammar.interfaceDeclaration
      (Avoids [.semicolon]) (fun _ => True) stuck := by
  simp only [Grammar.interfaceDeclaration, mul_assoc]
  apply seq expect
  intro keyword worded _
  apply seq expect
  intro name named _
  apply bindOk (get_run named)
  apply reportIf rfl
  intro first
  apply reportIf rfl
  intro own
  apply reportIf rfl
  intro expressed
  apply seq expect
  intro _ opened _
  rw [← mul_assoc]
  apply seq (methods found)
  intro declared read _
  apply eatLast
  intro _ ended
  apply reportIf rfl
  intro state
  apply ite
  · intro _
    exact last intern fun id interned _ => modify rfl rfl
  · exact fun _ => pure trivial

end Interfaces

section Files

/-- The words that a definition starts with. -/
def definitionStarts : List TokenKind := [.enum, .struct, .union, .interface]

theorem startsIn_definition : StartsIn definitionStarts (Grammar.definition integers) := by
  refine .add (.add (.add ?_ ?_) ?_) ?_
  · exact .mul (.mul (.mul (.mul (.mul (.mul (.word (by decide)))))))
  all_goals exact .mul (.mul (.mul (.mul (.mul (.word (by decide))))))

theorem startsIn_declaration :
    StartsIn (.bracketOpen :: definitionStarts) (Grammar.declaration integers) := by
  apply StartsIn.optional_mul
  · exact .mul (.mul (.word (by decide)))
  · intro text isDefinition
    obtain ⟨kind, listed, isHead⟩ := startsIn_definition text isDefinition
    exact ⟨kind, List.mem_cons_of_mem _ listed, isHead⟩

theorem declaration (arePlain : integers ≤ plainType) :
    Passes before (declaration options) (Grammar.declaration integers) (Avoids [.semicolon])
      (fun _ => True) restOfDeclaration := by
  apply bind optionalAttributes
  · rintro ⟨found, place⟩ attributed _ _
    refine either (either (either ?_ ?_) ?_) ?_
    · apply bindPeek (StartsIn.ofWord .enum).mul.mul.mul.mul.mul.mul
      intro isEnum
      rw [List.mem_singleton.mp isEnum]
      exact enumDeclaration arePlain found place
    · apply bindPeek (StartsIn.ofWord .struct).mul.mul.mul.mul.mul
      intro isStruct
      rw [List.mem_singleton.mp isStruct]
      exact recordDeclaration found place false
    · apply bindPeek (StartsIn.ofWord .union).mul.mul.mul.mul.mul
      intro isUnion
      rw [List.mem_singleton.mp isUnion]
      exact recordDeclaration found place true
    · apply bindPeek (StartsIn.ofWord .interface).mul.mul.mul.mul.mul
      intro isInterface
      rw [List.mem_singleton.mp isInterface]
      exact interfaceDeclaration found
  · exact startsIn_definition.avoids (by decide)
  · simp

theorem enterPackage (package : String) (place : Position) :
    Passes before (enterPackage options package place) 1 follow (fun _ => True) stuck := by
  apply bindOk (get_run before)
  split
  · exact bindOk rfl (modify rfl rfl)
  · exact skip (report rfl) fun _ _ _ => modify rfl rfl

theorem packageStatement :
    Passes before (packageStatement options) (Grammar.announcement .packageWord) follow
      (fun _ => True) stuck := by
  apply last announcement
  rintro ⟨package, place⟩ read _
  simp only
  split
  · exact skip (modify rfl rfl) fun _ _ _ => enterPackage package place
  · exact skip (report rfl) fun _ _ _ => enterPackage package place

section Header

variable {production : Parse Unit}

/-- A production that does nothing but report. -/
theorem ofReport {place : Position} {fault : SourceFault} (semantic : fault.kind = .semantic)
    (run : production before = Parse.report place fault before) :
    Passes before production 1 follow (fun _ => True) stuck := by
  have quiet : fault.isQuiet = true := by simp [SourceFault.isQuiet, semantic]
  have reports : Passes before (Parse.report place fault) 1 follow _ stuck := report quiet
  unfold Passes at reports ⊢
  rwa [run]

/-- A production that neither takes tokens nor reports. -/
theorem ofOk {after : ParseState} (run : production before = .ok () after)
    (tokens : after.tokens = before.tokens) (diagnostics : after.diagnostics = before.diagnostics) :
    Passes before production 1 follow (fun _ => True) stuck := by
  rintro text rest rfl - isAhead
  rw [run]
  refine ⟨.of_eq diagnostics, ?_, trivial⟩
  rwa [kinds, tokens]

theorem importStatement :
    Passes before importStatement (Grammar.announcement .importWord) follow (fun _ => True)
      stuck := by
  apply last announcement
  rintro ⟨name, place⟩ read _
  rcases importUnit_cases name place read with ⟨fault, refused, run⟩ | ⟨id, after, run, imports⟩
  · exact ofReport refused.semantic run
  · exact ofOk run (by rw [imports.state]) (by rw [imports.state])

theorem sequenceableStatement :
    Passes before sequenceableStatement (Grammar.announcement .sequenceable) follow (fun _ => True)
      stuck := by
  apply last announcement
  rintro ⟨full, place⟩ read _
  rcases declareSequenceable_cases full place read with ⟨fault, refused, run⟩
    | ⟨package, name, after, run, outcome⟩
  · exact ofReport refused.semantic run
  · obtain ⟨type, sees⟩ := exists_sees outcome
    exact ofOk run (by rw [sees.state]) (by rw [sees.state])

/-- A round that reads one part of the file, and goes on behind it if it is broken. -/
theorem recovering {recover : Parse Unit}
    (passes : Passes before production part follow (fun _ => True) stuck)
    (recovers : ∀ state, Passes state recover stuck follow (fun _ => True) 0) :
    Passes before
      (do
        if (← Parse.attempt production).isNone then recover
        return (.inl () : Unit ⊕ Unit))
      part follow (fun result => result.isLeft = true) 0 := by
  apply bindAttempt passes fun _ _ _ isStuck _ => isStuck
  · exact fun _ _ _ => pure rfl
  · exact fun state => last (recovers state) fun _ _ _ => pure rfl

theorem headerStatements :
    Passes before headerStatements headerStatement∗ (Avoids [.importWord, .sequenceable])
      (fun _ => True) 0 := by
  have starts (keyword : TokenKind) : StartsIn [keyword] (Grammar.announcement keyword) :=
    (StartsIn.ofWord keyword).mul.mul
  have notEmpty : [] ∉ headerStatement := by
    rintro (impossible | impossible)
    · exact (starts .importWord).nil_notMem impossible
    · exact (starts .sequenceable).nil_notMem impossible
  rw [← mul_one (_∗)]
  apply loop (fun _ => True) notEmpty _ _ (fun _ _ _ _ => trivial) (by simp)
  · rintro - state
    apply either
    · apply bindPeek (starts .importWord)
      intro isImport
      rw [List.mem_singleton.mp isImport]
      exact bindOk rfl (recovering importStatement fun _ => recoverStatement)
    · apply bindPeek (starts .sequenceable)
      intro isSequenceable
      rw [List.mem_singleton.mp isSequenceable]
      exact bindOk rfl (recovering sequenceableStatement fun _ => recoverStatement)
  · rintro - state
    apply looking (· ∉ [.importWord, .sequenceable]) avoids_of_one
    intro different
    obtain ⟨notImport, notSequenceable⟩ : (ahead state).kind ≠ .importWord ∧
        (ahead state).kind ≠ .sequenceable := by simpa using different
    apply bindOk (peek_run state)
    split
    · exact absurd ‹_› notImport
    · exact absurd ‹_› notSequenceable
    · exact bindOk rfl (pure rfl)

theorem declarations (arePlain : integers ≤ plainType) :
    Passes before (declarations options) (Grammar.declaration integers)∗ (· = []) (fun _ => True)
      0 := by
  rw [← mul_one (_∗)]
  apply loop (Avoids [.semicolon]) startsIn_declaration.nil_notMem _ _ _ (by simp)
  · rintro - state
    apply bindPeek startsIn_declaration
    intro listed
    have notEnd : (ahead state).kind ≠ .eof := by
      intro atEnd
      rw [atEnd] at listed
      exact absurd listed (by decide)
    rw [if_neg notEnd]
    exact recovering (declaration arePlain) fun _ => recoverDeclaration
  · rintro - state
    apply looking (· = .eof)
    · rintro text rfl rest rfl
      rfl
    · intro atEnd
      apply bindOk (peek_run state)
      rw [if_pos atEnd]
      exact pure rfl
  · -- No declaration starts with a semicolon, so the one before it has taken its own.
    rintro text isItems rest rfl
    rw [mul_one] at isItems
    exact startsIn_declaration.avoids_kstar (by decide) text isItems [] (by decide)

theorem file (arePlain : integers ≤ plainType) :
    Passes before (file options) (Grammar.file integers) (· = []) (fun _ => True) 0 := by
  rw [Grammar.file, mul_assoc]
  apply seq packageStatement
  intro _ packaged _
  apply bind headerStatements
  · exact fun _ read _ _ => declarations arePlain
  · rintro text isItems rest rfl
    exact startsIn_declaration.avoids_kstar (by decide) text isItems [] (by decide)
  · simp

end Header

end Files

end Passes

end Parse

end DriverIdl
