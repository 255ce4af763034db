import DriverIdl.Proofs.Grammar.Integers
import DriverIdl.Proofs.Grammar.Spelling
import DriverIdl.Proofs.Parsing.Faults

/-!
# Files without a fault are derived by the grammar

Each production reads its part of the grammar: what it takes without a fault, the part derives.  Only
the base of an enum looks at more than the tokens.  It must be an integer, and its text is one of those
that the state takes for integers: `Shows` ties a type to its text for that.
-/

namespace DriverIdl

namespace Parse

namespace Spells

open Computability ParseState

variable {α β σ : Type} {before : ParseState} {options : Options} {integers : TokenLanguage}

section Tokens

variable {kind : TokenKind} {expected : String}

theorem unexpected {token : Token} {post : α → ParseState → List TokenKind → Prop} :
    Spells before (unexpected token expected) post :=
  fail

theorem next : Spells before next fun token _ text =>
    token.kind ≠ .eof → text = [token.kind] := by
  unfold Spells
  rw [next_run]
  refine ⟨Nat.le_refl _, fun _ => ?_⟩
  cases found : before.tokens with
  | nil => exact ⟨[], rfl, fun notEnd => absurd (by simp [ahead, found]) notEnd⟩
  | cons token rest => exact ⟨[token], rfl, fun _ => by simp [ahead, found]⟩

/-- Takes a token that must not be the end for the rest to go on. -/
theorem bindNext {rest : Token → Parse α} {post : α → ParseState → List TokenKind → Prop}
    (goesOn : ∀ token state, Parse.next before = .ok token state →
      Spells state (rest token) fun value after text =>
        token.kind ≠ .eof ∧ post value after (token.kind :: text)) :
    Spells before (Parse.next >>= rest) post := by
  apply bind next
  intro token state run
  apply (goesOn token state run).imp
  rintro value after text - - ⟨notEnd, holds⟩ taken isToken
  rw [isToken notEnd]
  exact holds

theorem expect (notEnd : kind ≠ .eof) :
    Derives before (expect kind expected) (Grammar.word kind) := by
  unfold Derives Spells
  cases run : Parse.expect kind expected before with
  | ok token after =>
      obtain ⟨takes, rfl⟩ := expect_ok notEnd run
      exact ⟨by rw [takes.same], fun _ => ⟨[token], takes.tokens, rfl⟩⟩
  | error fault after =>
      simp only [Parse.expect, Bind.bind, EStateM.bind, peek_run] at run
      split at run
      · cases run
      · cases run
        exact Nat.lt_succ_self _

theorem eat (notEnd : kind ≠ .eof) :
    Spells before (eat kind) fun taken after text =>
      (taken = true ∧ text = [kind]) ∨ (taken = false ∧ after = before ∧ text = []) := by
  unfold Spells
  cases run : Parse.eat kind before with
  | ok taken after =>
      rcases eat_ok notEnd run with ⟨rfl, token, takes, rfl⟩ | ⟨rfl, rfl, -⟩
      · exact ⟨by rw [takes.same], fun _ => ⟨[token], takes.tokens, .inl ⟨rfl, rfl⟩⟩⟩
      · exact ⟨Nat.le_refl _, fun _ => ⟨[], rfl, .inr ⟨rfl, rfl, rfl⟩⟩⟩
  | error fault after =>
      simp only [Parse.eat, Bind.bind, EStateM.bind, peek_run] at run
      split at run <;> cases run

theorem eatOptional (notEnd : kind ≠ .eof) :
    Derives before (Parse.eat kind) (Grammar.optional (Grammar.word kind)) := by
  apply (eat notEnd).imp
  rintro taken after text - - (⟨-, rfl⟩ | ⟨-, -, rfl⟩)
  · exact .inr rfl
  · exact .inl rfl

/-- A choice by a token that may be left out. -/
theorem bindEat {rest : Bool → Parse α} {part : TokenLanguage} (notEnd : kind ≠ .eof)
    (taken : ∀ state, Derives state (rest true) part) {without : TokenLanguage}
    (missing : Derives before (rest false) without) :
    Derives before (Parse.eat kind >>= rest) (Grammar.word kind * part + without) := by
  apply bind (eat notEnd)
  intro isTaken state run
  cases isTaken with
  | true =>
      apply (taken state).imp
      rintro value after text - - ofPart early (⟨-, rfl⟩ | ⟨impossible, -⟩)
      · exact .inl (Grammar.cons_mem_word_mul ofPart)
      · cases impossible
  | false =>
      rcases eat_ok notEnd run with ⟨impossible, -⟩ | ⟨-, rfl, -⟩
      · cases impossible
      · apply missing.imp
        rintro value after text - - ofPart early (⟨impossible, -⟩ | ⟨-, -, rfl⟩)
        · cases impossible
        · exact .inr ofPart

theorem dottedTail (first : String) :
    Derives before (dottedTail first) (Grammar.word .dot * Grammar.word .identifier)∗ := by
  have rounds : Derives before (Parse.dottedTail first)
      ((Grammar.word .dot * Grammar.word .identifier)∗ * 1) := by
    apply loopItems
    · simp [Grammar.nil_mem_mul]
    · intro name state
      apply bind (eat (by decide))
      intro taken dotted _
      split
      · rename_i isTaken
        apply bind (expect (by decide))
        intro segment named _
        apply pure
        rintro more isName text (⟨-, rfl⟩ | ⟨notTaken, -⟩)
        · rw [List.append_nil]
          exact Grammar.cons_mem_word_mul isName
        · rw [isTaken] at notTaken
          cases notTaken
      · rename_i notTaken
        apply pure
        rintro text (⟨isTaken, -⟩ | ⟨-, -, rfl⟩)
        · exact absurd isTaken notTaken
        · rfl
  rwa [mul_one] at rounds

theorem dottedName (expected : String) : Derives before (dottedName expected) Grammar.dotted := by
  apply seq (expect (by decide))
  intro first named _
  apply seqLast (dottedTail first.text)
  intro name state _
  exact pure rfl

theorem announcement {keyword : TokenKind} {spelling : String} (notEnd : keyword ≠ .eof) :
    Derives before (announcement keyword spelling expected) (Grammar.announcement keyword) := by
  rw [Grammar.announcement, mul_assoc]
  apply seq (expect notEnd)
  intro _ worded _
  apply seq (dottedName expected)
  intro named read _
  apply seqLast (expect (by decide))
  intro _ closed _
  exact pure rfl

end Tokens

section Types

/-- The table has the type under the key of a container. -/
def Composed (state : ParseState) (type : TypeId) : Prop :=
  ∃ key, (key, type) ∈ state.unit.table ∧ key.isComposite = true

/-- Where a type comes from, by its text: from the table, as a container or under a name, or it is the
primitive type that the text spells. -/
inductive Shows (type : TypeId) (state : ParseState) (text : List TokenKind) : Prop where
  | composed (composed : Composed state type)
  | named {key : TypeKey} (listed : (key, type) ∈ state.unit.table) (isNamed : key.isNamed = true)
      (isName : text ∈ Grammar.dotted)
  | primitive {primitive : Primitive} (isType : type = primitive.id)
      (spelled : Grammar.primitive? text = some primitive)

theorem Shows.congr {type : TypeId} {state later : ParseState} {text : List TokenKind}
    (shows : Shows type state text) (same : later.unit = state.unit) : Shows type later text := by
  cases shows with
  | composed composed =>
      obtain ⟨key, listed, composite⟩ := composed
      exact .composed ⟨key, same ▸ listed, composite⟩
  | named listed isNamed isName => exact .named (same ▸ listed) isNamed isName
  | primitive isType spelled => exact .primitive isType spelled

theorem intern {key : TypeKey} {node : TypeNode} :
    Spells before (intern key node) fun id after text =>
      text = [] ∧ (key, id) ∈ after.unit.table := by
  unfold Spells
  rcases intern_cases key node before with ⟨id, visible, run⟩ | ⟨-, run⟩
  · rw [run]
    have listed := CompiledUnit.mem_table_of_visibleType? visible
    exact ⟨Nat.le_refl _, fun _ => ⟨[], rfl, rfl, listed⟩⟩
  · rw [run]
    refine ⟨Nat.le_refl _, fun _ => ⟨[], rfl, rfl, ?_⟩⟩
    simp [ParseState.withType]

theorem checkElement (type : TypeId) (place : Position) :
    Spells before (checkElement type place) fun _ after text => after = before ∧ text = [] := by
  apply bindOk (types_run before)
  split
  · exact fail
  · exact pure ⟨rfl, rfl⟩

theorem checkSupport (type : TypeId) (place : Position) :
    Spells before (checkSupport options type place) fun _ after text =>
      after = before ∧ text = [] := by
  apply bindOk (types_run before)
  split
  · exact fail
  · exact pure ⟨rfl, rfl⟩

theorem elementType {typeExpression : Parse TypeId}
    (reads : Derives before typeExpression Grammar.type) :
    Derives before (elementType typeExpression) Grammar.type := by
  apply bindOk (peek_run before)
  apply seqLast reads
  intro type state _
  apply seqLast ((checkElement type _).imp fun _ _ _ _ _ checked => checked.2)
  intro _ after _
  exact pure rfl

theorem unsignedType : Spells before unsignedType fun id after text =>
    Grammar.BaseText (.unsigned :: text) ∧ Shows id after (.unsigned :: text) := by
  apply bindNext
  intro token state _
  have shows (kind : TokenKind) (primitive : Primitive) (listed : kind ∈ Grammar.unsignedWords)
      (spelled : Grammar.primitive? [.unsigned, kind] = some primitive) :
      Grammar.BaseText [.unsigned, kind] ∧ Shows primitive.id state [.unsigned, kind] :=
    ⟨.unsigned listed, .primitive rfl spelled⟩
  cases token.kind
  case char | byte | short | int | long =>
    exact pure ⟨by decide, shows _ _ (by decide) rfl⟩
  all_goals exact unexpected

/-- No production puts tokens back. -/
theorem length_le_of_ok {production : Parse α} {value : α} {after : ParseState}
    (runs : Runs (Moves SourceFault.OfBody) production) (run : production before = .ok value after) :
    after.tokens.length ≤ before.tokens.length :=
  (Reported.of_moves (runs.ok run)).tokens.length_le

section Containers

variable {typeExpression : Parse TypeId}
  (reads : ∀ state, state.tokens.length ≤ before.tokens.length →
    Derives state typeExpression Grammar.type)

include reads

theorem listType : Spells before (listType typeExpression) fun id after text =>
    Grammar.BaseText (.list :: text) ∧ Composed after id := by
  apply bind (expect (by decide))
  intro _ opened openRun
  have fewer := length_le_of_ok (.expects _ _) openRun
  apply bind (elementType (reads opened fewer))
  intro element read _
  apply bind (expect (by decide))
  intro _ closed _
  apply intern.imp
  rintro id after _ - - ⟨rfl, listed⟩ _ rfl text isType _ rfl
  have whole := Grammar.BaseText.list isType
  exact ⟨by simpa using whole, _, listed, rfl⟩

theorem mapType (runs : Runs (Moves SourceFault.OfBody) typeExpression) :
    Spells before (mapType typeExpression) fun id after text =>
      Grammar.BaseText (.map :: text) ∧ Composed after id := by
  apply bind (expect (by decide))
  intro _ opened openRun
  have fewer := length_le_of_ok (.expects _ _) openRun
  apply bind (elementType (reads opened fewer))
  intro key keyed keyRun
  have fewerKeyed := length_le_of_ok (.elementType runs) keyRun
  apply bind (expect (by decide))
  intro _ separated commaRun
  have fewerSeparated := length_le_of_ok (.expects _ _) commaRun
  apply bind (elementType (reads separated (by omega)))
  intro value valued _
  apply bind (expect (by decide))
  intro _ closed _
  apply intern.imp
  rintro id after _ - - ⟨rfl, listed⟩ _ rfl valueText isValue _ rfl keyText isKey _ rfl
  have whole := Grammar.BaseText.map isKey isValue
  exact ⟨by simpa using whole, _, listed, rfl⟩

theorem queueType (place : Position) :
    Spells before (queueType typeExpression place) fun id after text =>
      Grammar.BaseText (.sharedMemQueue :: text) ∧ Composed after id := by
  apply bind (expect (by decide))
  intro _ opened openRun
  have fewer := length_le_of_ok (.expects _ _) openRun
  apply bind (elementType (reads opened fewer))
  intro element read _
  apply bind (expect (by decide))
  intro _ closed _
  apply bindOk (types_run closed)
  apply failIf
  apply intern.imp
  rintro id after _ - - ⟨rfl, listed⟩ _ rfl text isType _ rfl
  have whole := Grammar.BaseText.queue isType
  exact ⟨by simpa using whole, _, listed, rfl⟩

end Containers

theorem namedType (first : Token) : Spells before (namedType first) fun id after text =>
    Grammar.BaseText (.identifier :: text) ∧ Shows id after (.identifier :: text) := by
  apply bind (dottedTail first.text)
  intro name state _
  apply bindOk (get_run state)
  split
  · rename_i id found
    apply pure
    intro text isTail
    obtain ⟨namespaceId, short, listed⟩ := Reading.mem_table_of_lookup? found
    have isName : .identifier :: text ∈ Grammar.dotted := Grammar.cons_mem_word_mul isTail
    rw [List.append_nil]
    exact ⟨.named isName, .named listed rfl isName⟩
  · exact fail

theorem arraySuffix (base : TypeId) (place : Position) :
    Spells before (arraySuffix base place) fun type after text =>
      text ∈ Grammar.brackets∗ ∧
        (Composed after type ∨ (type = base ∧ after.unit = before.unit ∧ text = [])) := by
  apply loop fun type state read => read ∈ Grammar.brackets∗ ∧
    (Composed state type ∨ (type = base ∧ state.unit = before.unit ∧ read = []))
  · exact ⟨Language.nil_mem_kstar _, .inr ⟨rfl, rfl, rfl⟩⟩
  · exact fun _ _ _ => id
  · intro type state
    apply bind (eat (by decide))
    intro taken opened _
    split
    · rename_i isTaken
      apply bind (expect (by decide))
      intro _ closed _
      apply bind (checkElement type place)
      intro _ checked _
      apply bind intern
      intro id after _
      apply pure
      rintro _ ⟨rfl, listed⟩ _ ⟨-, rfl⟩ _ rfl _ (⟨-, rfl⟩ | ⟨notTaken, -⟩) read ⟨isSuffix, -⟩
      · refine ⟨by simp, Grammar.append_mem_kstar isSuffix ?_, .inl ⟨_, listed, rfl⟩⟩
        exact Grammar.cons_mem_word_mul rfl
      · rw [isTaken] at notTaken
        cases notTaken
    · rename_i notTaken
      apply pure
      rintro _ (⟨isTaken, -⟩ | ⟨-, rfl, rfl⟩) read held
      · exact absurd isTaken notTaken
      · simpa [Round] using held

theorem baseType {typeExpression : Parse TypeId} {token : Token}
    (reads : token.kind ≠ .eof → ∀ state, state.tokens.length ≤ before.tokens.length →
      Derives state typeExpression Grammar.type)
    (runs : Runs (Moves SourceFault.OfBody) typeExpression) :
    Spells before (baseType typeExpression token) fun id after text =>
      token.kind ≠ .eof ∧ Grammar.BaseText (token.kind :: text) ∧
        Shows id after (token.kind :: text) := by
  have shows (kind : TokenKind) (primitive : Primitive) (listed : kind ∈ Grammar.primitiveWords)
      (spelled : Grammar.primitive? [kind] = some primitive) :
      Spells before (Pure.pure primitive.id) fun id after text =>
        kind ≠ .eof ∧ Grammar.BaseText (kind :: text) ∧ Shows id after (kind :: text) := by
    refine pure ⟨?_, .primitive listed, .primitive rfl spelled⟩
    rintro rfl
    exact absurd listed (by decide)
  have composed {kind : TokenKind} {production : Parse TypeId} (notEnd : kind ≠ .eof)
      (spells : Spells before production fun id after text =>
        Grammar.BaseText (kind :: text) ∧ Composed after id) :
      Spells before production fun id after text =>
        kind ≠ .eof ∧ Grammar.BaseText (kind :: text) ∧ Shows id after (kind :: text) :=
    spells.imp fun _ _ _ _ _ ⟨isBase, isComposed⟩ => ⟨notEnd, isBase, .composed isComposed⟩
  unfold Parse.baseType
  cases found : token.kind
  case byte | char | short | int | long | boolean | float | double | string | fileDescriptor =>
    exact shows _ _ (by decide) rfl
  case unsigned =>
    exact unsignedType.imp fun _ _ _ _ _ holds => ⟨by decide, holds⟩
  case list => exact composed (by decide) (listType (reads (by simp [found])))
  case map =>
    exact composed (by decide) (mapType (reads (by simp [found])) runs)
  case sharedMemQueue =>
    exact composed (by decide) (queueType (reads (by simp [found])) token.place)
  case identifier =>
    exact (namedType token).imp fun _ _ _ _ _ holds => ⟨by decide, holds⟩
  all_goals exact unexpected

/-- Each level of containers takes a token, so a depth above the number of tokens is never reached. -/
theorem typeWithin (depth : Nat) (enough : before.tokens.length < depth) :
    Spells before (typeWithin options depth) fun type after text =>
      Grammar.TypeText text ∧ Shows type after text := by
  induction depth generalizing before with
  | zero => exact absurd enough (Nat.not_lt_zero _)
  | succ depth ih =>
      apply bindNext
      intro token state run
      obtain ⟨rfl, rfl⟩ : ahead before = token ∧
          { before with tokens := before.tokens.tail } = state := by
        simpa [next_run] using run
      have fewer (notEnd : (ahead before).kind ≠ .eof) (inner : ParseState)
          (shorter : inner.tokens.length ≤ before.tokens.tail.length) :
          inner.tokens.length < depth := by
        have taken := (takes_ahead notEnd).length_lt
        simp only at taken
        omega
      apply bind
      · apply baseType _ (.typeWithin depth)
        intro notEnd inner shorter
        exact (ih (fewer notEnd inner shorter)).imp fun _ _ _ _ _ holds => holds.1
      intro base based _
      apply bind (arraySuffix base _)
      intro type suffixed _
      apply bind (checkSupport type _)
      intro _ checked _
      apply pure
      rintro _ ⟨rfl, rfl⟩ suffix ⟨isSuffix, last⟩ baseText ⟨notEnd, isBase, shows⟩
      refine ⟨notEnd, .suffixed isBase (by simpa using isSuffix), ?_⟩
      rcases last with composed | ⟨rfl, sameUnit, rfl⟩
      · exact .composed composed
      · simpa using shows.congr sameUnit

theorem typeExpression : Spells before (typeExpression options) fun type after text =>
    Grammar.TypeText text ∧ Shows type after text := by
  apply bindOk (get_run before)
  exact typeWithin _ (Nat.lt_succ_self _)

theorem typeText : Derives before (Parse.typeExpression options) Grammar.type :=
  typeExpression.imp fun _ _ _ _ _ holds => holds.1

end Types

/-- A fault that is reported on a condition in front of a part. -/
theorem skipReport {condition : Prop} [Decidable condition] {place : Position}
    {fault : SourceFault} {rest : PUnit → Parse α} {part : TokenLanguage}
    (goesOn : ∀ state, Derives state (rest ⟨⟩) part) :
    Derives before (if condition then Parse.report place fault >>= rest else rest ⟨⟩) part :=
  reportIf fun state => (goesOn state).imp fun _ _ _ _ _ ofPart _ _ => ofPart

section Attributes

theorem mem_attributeWords {kind : TokenKind} (slot : attributeSlot? kind ≠ none) :
    kind ∈ Grammar.attributeWords := by
  cases kind <;> simp_all [attributeSlot?, Grammar.attributeWords]

theorem oneAttribute (found : Attributes) :
    Derives before (oneAttribute found) (Grammar.anyOf Grammar.attributeWords) := by
  apply bindNext
  intro token state _
  cases slot : attributeSlot? token.kind with
  | none => exact unexpected
  | some setter =>
      have listed := @mem_attributeWords token.kind (by simp [slot])
      have notEnd : token.kind ≠ .eof := by
        intro atEnd
        rw [atEnd] at listed
        exact absurd listed (by decide)
      match setter with
      | none => exact bindReport fun _ => pure trivial
      | some (isSet, set) =>
          simp only
          split
          · exact bindReport fun _ => pure trivial
          · exact pure ⟨notEnd, token.kind, listed, rfl⟩

/-- Items with commas between them, behind the last of which something else stands. -/
theorem separated {step : σ → Parse (σ ⊕ α)} {start : σ} {item closing : TokenLanguage}
    (notEmpty : [] ∉ item)
    (round : ∀ current state, Spells state (step current) fun result _ text =>
      ItemOrLast (item * Grammar.word .comma) (item * closing) result text) :
    Derives before (Parse.loop step start) (Grammar.separated item * closing) := by
  rw [Grammar.separated_eq, mul_assoc]
  apply loopItems _ round
  rw [Grammar.nil_mem_mul]
  exact fun both => notEmpty both.1

theorem attributes : Derives before attributes Grammar.attributes := by
  rw [Grammar.attributes, mul_assoc]
  apply seq (expect (by decide))
  intro opening opened _
  apply seqLast
  · apply separated
    · simp
    · intro found state
      apply bind (oneAttribute found)
      intro extended read _
      apply bindNext
      intro token behind _
      cases token.kind
      case comma =>
        exact pure ⟨by decide, fun text isWord => Language.append_mem_mul isWord rfl⟩
      case bracketClose =>
        exact pure ⟨by decide, fun text isWord => Language.append_mem_mul isWord rfl⟩
      all_goals exact unexpected
  · intro found read _
    apply skipReport
    intro state
    exact pure rfl

theorem optionalAttributes :
    Derives before optionalAttributes (Grammar.optional Grammar.attributes) := by
  apply bindOk (peek_run before)
  split
  · exact attributes.imp fun _ _ _ _ _ ofPart => .inr ofPart
  · exact pure (.inl rfl)

end Attributes

section Enums

theorem checkTypeAttributes (declaration : String) (found : Attributes) (place : Position) :
    Spells before (checkTypeAttributes declaration found place) fun _ after text =>
      after = before ∧ text = [] :=
  reportWhen

theorem checkNewName (name : String) (place : Position) :
    Spells before (checkNewName name place) fun _ after text => after = before ∧ text = [] := by
  apply bindOk (get_run before)
  apply ite
  · exact fun _ => bindReport fun _ => pure trivial
  · exact fun _ => pure ⟨rfl, rfl⟩

/-- The text of an integer is one of those that the state takes for integers. -/
theorem mem_of_shows {type : TypeId} {text : List TokenKind} {base : Primitive}
    (takes : before.TakesIntegers integers) (shows : Shows type before text)
    (found : (before.types.primitive? type).filter Primitive.isIntegral = some base) :
    text ∈ integers := by
  have holds := TypeArena.holdsInteger_of_primitive? found
  cases shows with
  | composed composed =>
      obtain ⟨key, listed, composite⟩ := composed
      rw [(takes.table _ listed holds).1] at composite
      cases composite
  | named listed isNamed isName => exact (takes.table _ listed holds).2 isNamed isName
  | primitive isType spelled => exact takes.primitive _ _ spelled (isType ▸ holds)

/-- A part of the grammar that a production reads in states that take some texts for integers. -/
abbrev DerivesTaking (integers : TokenLanguage) (before : ParseState) (production : Parse α)
    (part : TokenLanguage) : Prop :=
  Spells before production fun _ _ text => before.TakesIntegers integers → text ∈ part

/-- What is taken for integers in front of a production is so behind it. -/
theorem keeping {production : Parse α} {post : α → ParseState → List TokenKind → Prop}
    (spells : Spells before production post) (keeps : Runs KeepsIntegers production) :
    Spells before production fun value after text =>
      post value after text ∧ before.KeepsIntegers after :=
  spells.imp fun _ _ _ run _ holds => ⟨holds, keeps.ok run⟩

/-- A word in front of such a part; it is taken in any state. -/
theorem wordTaking {kind : TokenKind} {expected : String} {second : Token → Parse β}
    {more : TokenLanguage} (notEnd : kind ≠ .eof)
    (goesOn : ∀ token state, DerivesTaking integers state (second token) more) :
    Spells before (Parse.expect kind expected >>= second) fun _ _ text =>
      text ≠ [] ∧ (before.TakesIntegers integers → text ∈ Grammar.word kind * more) := by
  apply bind ((expect notEnd).keeping (.expects kind expected))
  intro token state _
  apply (goesOn token state).imp
  rintro result after text - - ofMore _ ⟨rfl, keeps⟩
  exact ⟨by simp, fun takes => Grammar.cons_mem_word_mul (ofMore (keeps integers takes))⟩

/-- A check in front of such a part. -/
theorem checkTaking {first : Parse α} {second : α → Parse β} {part : TokenLanguage}
    (checks : Spells before first fun _ after text => after = before ∧ text = [])
    (goesOn : ∀ value state, DerivesTaking integers state (second value) part) :
    DerivesTaking integers before (first >>= second) part := by
  apply bind checks
  intro value state _
  apply (goesOn value state).imp
  rintro result after text - - ofPart _ ⟨rfl, rfl⟩ takes
  exact ofPart takes

/-- Two parts, the first of which is such a part. -/
theorem seqTaking {first : Parse α} {second : α → Parse β} {part more : TokenLanguage}
    (starts : DerivesTaking integers before first part)
    (goesOn : ∀ value state, first before = .ok value state → Derives state (second value) more) :
    DerivesTaking integers before (first >>= second) (part * more) := by
  apply bind starts
  intro value state run
  apply (goesOn value state run).imp
  rintro result after text - - ofMore early ofPart takes
  exact Language.append_mem_mul (ofPart takes) ofMore

variable (integers)

theorem enumBase : DerivesTaking integers before (enumBase options) (Grammar.enumBase integers) := by
  apply bind ((eat (by decide)).keeping (.eat _))
  intro taken state _
  split
  · rename_i isTaken
    apply bindOk (peek_run state)
    apply bind (typeExpression.keeping .typeExpression)
    intro type read _
    apply bindOk (types_run read)
    split
    · rename_i base found
      apply pure
      rintro typeText ⟨⟨-, shows⟩, keepsRead⟩ _ ⟨⟨-, rfl⟩ | ⟨notTaken, -⟩, keepsState⟩ takes
      · refine .inr (Grammar.cons_mem_word_mul ?_)
        rw [List.append_nil]
        exact mem_of_shows (keepsRead integers (keepsState integers takes)) shows found
      · rw [isTaken] at notTaken
        cases notTaken
    · exact bindReport fun _ => pure trivial
  · rename_i notTaken
    apply pure
    rintro _ ⟨⟨isTaken, -⟩ | ⟨-, -, rfl⟩, -⟩ -
    · exact absurd isTaken notTaken
    · exact .inl rfl

theorem enumValue (members : List EnumMember) :
    Derives before (enumValue members) Grammar.enumValue := by
  apply bind (eat (by decide))
  intro negative state _
  apply bindNext
  intro token taken _
  cases token.kind
  case number =>
    simp only
    split
    · apply pure
      refine ⟨by decide, ?_⟩
      rintro _ (⟨-, rfl⟩ | ⟨-, -, rfl⟩)
      · exact .inl (Language.append_mem_mul (.inr rfl) rfl)
      · exact .inl (Language.append_mem_mul (.inl rfl) rfl)
    · exact fail
  case identifier =>
    simp only
    split
    · exact unexpected
    · rename_i notNegative
      split
      · apply pure
        refine ⟨by decide, ?_⟩
        rintro _ (⟨isNegative, -⟩ | ⟨-, -, rfl⟩)
        · exact absurd isNegative notNegative
        · exact .inr rfl
      · exact fail
  all_goals exact unexpected

theorem checkBodyGoesOn (token : Token) :
    Spells before (checkBodyGoesOn token) fun _ after text => after = before ∧ text = [] := by
  unfold Parse.checkBodyGoesOn
  split
  · exact unexpected
  · exact pure ⟨rfl, rfl⟩

theorem enumMember (base : Primitive) (members : List EnumMember) (following : Int) :
    Spells before (enumMember base members following) fun result _ text =>
      ∃ start ∈ Grammar.enumMember,
        text = if result.2.2 then start ++ [.comma] else start := by
  apply bind (expect (by decide))
  intro name named _
  apply bind (eat (by decide))
  intro assigned state _
  have valueRead : assigned = true → Derives state (Parse.enumValue members)
      (if assigned then Grammar.enumValue else 1) := by
    rintro rfl
    exact enumValue members
  have noValue : ¬assigned = true → Derives state (Pure.pure following)
      (if assigned then Grammar.enumValue else 1) := by
    intro notAssigned
    rw [if_neg notAssigned]
    exact pure rfl
  apply bindIf valueRead noValue
  intro value valued
  apply reportIf
  intro checked
  apply ite
  · intro _
    apply bindReport
    intro reported
    apply bindOk rfl
    apply bind (eat (by decide))
    intro more after _
    exact pure fun _ _ => trivial
  · intro _
    apply bindOk rfl
    apply bind (eat (by decide))
    intro more after _
    apply pure
    rintro comma isComma - - valueText isValue assign isAssign _ rfl
    refine ⟨.identifier :: (assign ++ valueText), Grammar.cons_mem_word_mul ?_, ?_⟩
    · rcases isAssign with ⟨rfl, rfl⟩ | ⟨rfl, -, rfl⟩
      · exact .inr (Grammar.cons_mem_word_mul isValue)
      · exact .inl isValue
    · rcases isComma with ⟨rfl, rfl⟩ | ⟨rfl, -, rfl⟩
      · simp
      · simp

theorem enumMembers (base : Primitive) :
    Derives before (enumMembers base) Grammar.enumMembers := by
  have rounds : Derives before (Parse.enumMembers base)
      ((Grammar.enumMember * Grammar.word .comma)∗ * Grammar.optional Grammar.enumMember) := by
    apply loopItems
    · simp [Grammar.nil_mem_mul]
    · rintro ⟨members, following⟩ state
      apply bindOk (peek_run state)
      split
      · exact pure (.inl rfl)
      · apply bind (checkBodyGoesOn _)
        intro _ checked _
        apply bind (enumMember base members following)
        rintro ⟨extended, after, more⟩ read _
        simp only
        split
        · apply pure
          rintro text ⟨start, isMember, whole⟩ _ ⟨-, rfl⟩
          rw [List.nil_append, List.append_nil, whole]
          exact Language.append_mem_mul isMember rfl
        · apply pure
          rintro text ⟨start, isMember, whole⟩ _ ⟨-, rfl⟩
          rw [List.nil_append, List.append_nil, whole]
          exact .inr isMember
  rwa [← Grammar.optional_separated_eq] at rounds

theorem declare {name : String} {node : TypeNode} : Derives before (declare name node) 1 := by
  apply bindOk (get_run before)
  apply seqLast (intern.imp fun _ _ _ _ _ interned => interned.1)
  intro id interned _
  apply seqLast ((modify rfl rfl).imp fun _ _ _ _ _ changed => changed.2)
  intro _ listed _
  exact pure rfl

theorem enumDeclaration (found : Attributes) (place : Position) :
    Spells before (enumDeclaration options found place) fun _ _ text =>
      text ≠ [] ∧ (before.TakesIntegers integers → text ∈ Grammar.enumDeclaration integers) := by
  simp only [Grammar.enumDeclaration, mul_assoc]
  apply wordTaking (by decide)
  intro _ worded
  apply checkTaking (checkTypeAttributes "enum" found place)
  intro _ checked
  apply (wordTaking (by decide) _).imp fun _ _ _ _ _ holds => holds.2
  intro name named
  apply checkTaking (checkNewName name.text name.place)
  intro fresh unchanged
  apply seqTaking (enumBase integers)
  intro base based _
  apply seq (expect (by decide))
  intro _ opened _
  apply seq (enumMembers base)
  intro members read _
  apply seq (expect (by decide))
  intro _ closed _
  apply seqLast (eatOptional (by decide))
  intro _ ended _
  apply skipReport
  intro state
  apply ite
  · intro _
    apply bindOk (get_run state)
    apply seqLast declare
    intro _ declared _
    exact pure rfl
  · intro _
    exact pure rfl

end Enums

section Records

theorem recoverStatement : Spells before recoverStatement fun _ _ _ => True := by
  obtain ⟨rounds, run⟩ := recoverStatement_run before
  obtain ⟨skipped, split⟩ := afterStatement_suffix before.tokens
  rw [Spells, run]
  exact ⟨Nat.le_refl _, fun _ => ⟨skipped, split.symm, trivial⟩⟩

theorem recordMember (declaration : String) :
    Derives before (recordMember options declaration) Grammar.recordMember := by
  simp only [Grammar.recordMember, mul_assoc]
  apply bindOk (peek_run before)
  apply seq typeText
  intro type read _
  apply bindOk (types_run read)
  split
  · exact fail
  · apply seq (expect (by decide))
    intro name named _
    apply seqLast (expect (by decide))
    intro _ closed _
    exact pure rfl

theorem bodyRound {item : Parse α} {faultOf? : List α → α → Option (Position × SourceFault)}
    {part : TokenLanguage} (reads : ∀ state, Derives state item part) (items : List α) :
    Spells before (bodyRound item faultOf? items) fun result _ text =>
      ItemOrLast part (Grammar.word .braceClose) result text := by
  apply bind (eat (by decide))
  intro closed entered _
  split
  · rename_i isClosed
    apply pure
    rintro text (⟨-, rfl⟩ | ⟨notClosed, -⟩)
    · rfl
    · rw [isClosed] at notClosed
      cases notClosed
  · rename_i notClosed
    apply bindOk (peek_run entered)
    apply bind (checkBodyGoesOn _)
    intro _ checked _
    apply bind (attempt (reads checked))
    intro result read _
    match result with
    | none =>
        apply bind recoverStatement
        intro _ recovered _
        apply pure
        rintro _ - _ ⟨value, impossible, -⟩
        cases impossible
    | some next =>
        simp only
        split
        · exact bindReport fun _ => pure trivial
        · apply pure
          rintro text ⟨_, -, ofPart⟩ _ ⟨-, rfl⟩ _ (⟨isClosed, -⟩ | ⟨-, -, rfl⟩)
          · exact absurd isClosed notClosed
          · simpa [ItemOrLast] using ofPart

theorem bodyItems {item : Parse α} {faultOf? : List α → α → Option (Position × SourceFault)}
    {part : TokenLanguage} (notEmpty : [] ∉ part) (reads : ∀ state, Derives state item part) :
    Derives before (bodyItems item faultOf?) (part∗ * Grammar.word .braceClose) :=
  loopItems notEmpty fun items _ => bodyRound reads items

theorem nil_notMem_recordMember : [] ∉ Grammar.recordMember := by
  simp [Grammar.recordMember, Grammar.nil_mem_mul]

theorem recordBody (declaration : String) (name : Token) (id : Option TypeId) :
    Derives before (recordBody options declaration name id)
      (Grammar.word .braceOpen * (Grammar.recordMember∗ * (Grammar.word .braceClose *
        Grammar.optional (Grammar.word .semicolon)))) := by
  apply seq (expect (by decide))
  intro _ opened _
  rw [← mul_assoc]
  apply seq (bodyItems nil_notMem_recordMember fun _ => recordMember declaration)
  intro members read _
  apply seqLast (eatOptional (by decide))
  intro _ closed _
  apply skipReport
  intro state
  split
  · exact (modify rfl rfl).imp fun _ _ _ _ _ changed => changed.2
  · exact pure rfl

theorem recordDeclaration (found : Attributes) (place : Position) (isUnion : Bool) :
    Derives before (recordDeclaration options found place isUnion)
      (Grammar.recordDeclaration (if isUnion then .union else .struct)) := by
  simp only [Grammar.recordDeclaration, mul_assoc]
  apply seq (expect (by split <;> decide))
  intro _ worded _
  apply seqNone ((checkTypeAttributes _ found place).imp fun _ _ _ _ _ checked => checked.2)
  intro _ checked _
  apply seq (expect (by decide))
  intro name named _
  apply skipReport
  intro reported
  apply seqNone ((checkNewName name.text name.place).imp fun _ _ _ _ _ checked => checked.2)
  intro fresh state _
  apply bindOk (get_run state)
  apply ite
  · intro _
    apply seqNone (map declare)
    intro id declared _
    exact recordBody _ name id
  · intro _
    apply bindOk rfl
    exact recordBody _ name none

end Records

section Interfaces

theorem direction : Derives before direction Grammar.direction := by
  simp only [Grammar.direction, mul_assoc]
  apply seq (expect (by decide))
  intro _ opened _
  apply bindNext
  intro token state _
  have closes {kind : TokenKind} (way : Direction) (listed : kind ∈ [TokenKind.inWord, .outWord]) :
      Spells state (do
        let _ ← Parse.expect .bracketClose "\"]\""
        return way) fun _ _ text =>
          kind ≠ .eof ∧
            kind :: text ∈ Grammar.anyOf [.inWord, .outWord] * Grammar.word .bracketClose := by
    apply bind (expect (by decide))
    intro _ closed _
    apply pure
    rintro _ rfl
    have isWord : [kind] ∈ Grammar.anyOf [.inWord, .outWord] := ⟨kind, listed, rfl⟩
    refine ⟨?_, Language.append_mem_mul isWord rfl⟩
    rintro rfl
    simp at listed
  cases token.kind
  case inWord => exact bindOk rfl (closes .inward (by decide))
  case outWord => exact bindOk rfl (closes .outward (by decide))
  all_goals exact bindFail

theorem checkInterfaceDirection (type : TypeId) (way : Direction) (place : Position) :
    Derives before (checkInterfaceDirection type way place) 1 := by
  apply bindOk (types_run before)
  split
  · exact pure rfl
  · split
    · exact report
    · exact report
    · exact pure rfl

theorem parameter : Derives before (parameter options) Grammar.parameter := by
  simp only [Grammar.parameter, mul_assoc]
  apply seq direction
  intro way directed _
  apply seq typeText
  intro type read _
  apply seqLast (expect (by decide))
  intro name named _
  apply seqLast (checkInterfaceDirection type way name.place)
  intro _ checked _
  exact pure rfl

theorem parameters : Derives before (parameters options)
    (Grammar.optional (Grammar.separated Grammar.parameter) * Grammar.word .parenClose) := by
  have choice : Grammar.optional (Grammar.separated Grammar.parameter) * Grammar.word .parenClose =
      Grammar.word .parenClose * 1 +
        Grammar.separated Grammar.parameter * Grammar.word .parenClose := by
    rw [Grammar.optional, add_mul, one_mul, mul_one]
  rw [choice]
  apply bindEat (by decide)
  · intro state
    exact pure rfl
  · apply separated
    · simp [Grammar.parameter, Grammar.direction, Grammar.nil_mem_mul]
    · intro known state
      apply bind parameter
      intro next read _
      apply ite
      · intro _
        apply bindReport
        intro reported
        apply bindOk rfl
        apply bindNext
        intro token behind _
        cases token.kind
        case comma | parenClose => exact pure ⟨by decide, trivial⟩
        all_goals exact unexpected
      · intro _
        apply bindOk rfl
        apply bindNext
        intro token behind _
        cases token.kind
        case comma | parenClose =>
          exact pure ⟨by decide, fun _ ofPart => Language.append_mem_mul ofPart rfl⟩
        all_goals exact unexpected

theorem method (interfaceAttributes : Attributes) :
    Derives before (method options interfaceAttributes) Grammar.method := by
  simp only [Grammar.method, mul_assoc]
  apply seq optionalAttributes
  rintro ⟨found, place⟩ attributed _
  apply skipReport
  intro accepted
  apply seq (expect (by decide))
  intro name named _
  apply seq (expect (by decide))
  intro _ opened _
  rw [← mul_assoc]
  apply seq parameters
  intro all read _
  apply seqLast (expect (by decide))
  intro _ closed _
  apply ite
  · intro _
    simp only
    split
    · exact bindReport fun _ => pure trivial
    · exact pure rfl
  · exact fun _ => pure rfl

theorem nil_notMem_method : [] ∉ Grammar.method := by
  simp [Grammar.method, Grammar.nil_mem_mul]

theorem interfaceDeclaration (found : Attributes) :
    Derives before (interfaceDeclaration options found) Grammar.interfaceDeclaration := by
  simp only [Grammar.interfaceDeclaration, mul_assoc]
  apply seq (expect (by decide))
  intro keyword worded _
  apply seq (expect (by decide))
  intro name named _
  apply bindOk (get_run named)
  apply skipReport
  intro first
  apply skipReport
  intro own
  apply skipReport
  intro expressed
  apply seq (expect (by decide))
  intro _ opened _
  rw [← mul_assoc]
  apply seq (bodyItems nil_notMem_method fun _ => method found)
  intro declared read _
  apply seqLast (eatOptional (by decide))
  intro _ ended _
  apply skipReport
  intro state
  apply ite
  · intro _
    apply seqLast (intern.imp fun _ _ _ _ _ interned => interned.1)
    intro id interned _
    exact (modify rfl rfl).imp fun _ _ _ _ _ changed => changed.2
  · exact fun _ => pure rfl

end Interfaces

section Files

theorem nil_notMem_recordDeclaration (keyword : TokenKind) :
    [] ∉ Grammar.recordDeclaration keyword := by
  simp [Grammar.recordDeclaration, Grammar.nil_mem_mul]

theorem nil_notMem_interfaceDeclaration : [] ∉ Grammar.interfaceDeclaration := by
  simp [Grammar.interfaceDeclaration, Grammar.nil_mem_mul]

/-- A definition that is read alike in all states. -/
theorem ofDerives {production : Parse Unit} {part : TokenLanguage}
    (reads : Derives before production part) (notEmpty : [] ∉ part)
    (listed : ∀ text ∈ part, text ∈ Grammar.definition integers) :
    Spells before production fun _ _ text =>
      text ≠ [] ∧ (before.TakesIntegers integers → text ∈ Grammar.definition integers) := by
  apply reads.imp
  rintro _ after text - - ofPart
  exact ⟨ne_of_mem_of_not_mem ofPart notEmpty, fun _ => listed text ofPart⟩

variable (integers)

theorem declaration : Spells before (declaration options) fun _ _ text =>
    text ≠ [] ∧ (before.TakesIntegers integers → text ∈ Grammar.declaration integers) := by
  apply bind (optionalAttributes.keeping .optionalAttributes)
  rintro ⟨found, place⟩ attributed _
  have behind {production : Parse Unit} (defines : Spells attributed production fun _ _ text =>
      text ≠ [] ∧ (attributed.TakesIntegers integers → text ∈ Grammar.definition integers)) :
      Spells attributed production fun _ _ more => ∀ text,
        text ∈ Grammar.optional Grammar.attributes ∧ before.KeepsIntegers attributed →
          text ++ more ≠ [] ∧
            (before.TakesIntegers integers → text ++ more ∈ Grammar.declaration integers) := by
    apply defines.imp
    rintro _ after more - - ⟨taken, ofPart⟩ text ⟨isAttributes, keeps⟩
    refine ⟨by simp [taken], fun takes => ?_⟩
    exact Language.append_mem_mul isAttributes (ofPart (keeps integers takes))
  apply bindOk (peek_run attributed)
  cases (ahead attributed).kind
  case enum =>
    apply behind
    apply (enumDeclaration integers found place).imp
    rintro _ after text - - ⟨taken, ofPart⟩
    exact ⟨taken, fun takes => .inl (.inl (.inl (ofPart takes)))⟩
  case struct =>
    exact behind (ofDerives (recordDeclaration found place false) (nil_notMem_recordDeclaration _)
      fun _ ofPart => .inl (.inl (.inr ofPart)))
  case union =>
    exact behind (ofDerives (recordDeclaration found place true) (nil_notMem_recordDeclaration _)
      fun _ ofPart => .inl (.inr ofPart))
  case interface =>
    exact behind (ofDerives (interfaceDeclaration found) nil_notMem_interfaceDeclaration
      fun _ ofPart => .inr ofPart)
  case packageWord | importWord | sequenceable =>
    apply bindReport
    intro reported
    apply bind next
    intro _ skipped _
    exact recoverStatement.imp fun _ _ _ _ _ _ _ _ => trivial
  all_goals exact unexpected

theorem enterPackage (package : String) (place : Position) :
    Derives before (enterPackage options package place) 1 := by
  apply bindOk (get_run before)
  split
  · exact bindOk rfl ((modify rfl rfl).imp fun _ _ _ _ _ changed => changed.2)
  · exact bindReport fun _ => (modify rfl rfl).imp fun _ _ _ _ _ _ => trivial

theorem packageStatement :
    Derives before (packageStatement options) (Grammar.announcement .packageWord) := by
  apply seqLast (announcement (by decide))
  rintro ⟨package, place⟩ read _
  simp only
  split
  · apply seqLast ((modify rfl rfl).imp fun _ _ _ _ _ changed => changed.2)
    intro _ versioned _
    exact enterPackage package place
  · exact bindReport fun _ => (enterPackage package place).imp fun _ _ _ _ _ _ => trivial

theorem importUnit (name : String) (place : Position) :
    Derives before (importUnit name place) 1 := by
  rcases importUnit_cases name place before with ⟨fault, -, run⟩ | ⟨id, after, run, imports⟩
  · exact ofReport run
  · unfold Derives Spells
    rw [run]
    refine ⟨by rw [imports.state], fun _ => ⟨[], ?_, rfl⟩⟩
    rw [imports.state]
    rfl

theorem importStatement : Derives before importStatement (Grammar.announcement .importWord) := by
  apply seqLast (announcement (by decide))
  rintro ⟨name, place⟩ read _
  exact importUnit name place

theorem declareSequenceable (full : String) (place : Position) :
    Derives before (declareSequenceable full place) 1 := by
  rcases declareSequenceable_cases full place before with ⟨fault, -, run⟩
    | ⟨package, name, after, run, outcome⟩
  · exact ofReport run
  · obtain ⟨type, sees⟩ := exists_sees outcome
    unfold Derives Spells
    rw [run]
    refine ⟨by rw [sees.state], fun _ => ⟨[], ?_, rfl⟩⟩
    rw [sees.state]
    rfl

theorem sequenceableStatement :
    Derives before sequenceableStatement (Grammar.announcement .sequenceable) := by
  apply seqLast (announcement (by decide))
  rintro ⟨name, place⟩ read _
  exact declareSequenceable name place

theorem recoverDeclaration : Spells before recoverDeclaration fun _ _ _ => True := by
  obtain ⟨rounds, run⟩ := recoverDeclaration_run before
  obtain ⟨skipped, split⟩ := afterDeclaration_suffix 0 before.tokens
  rw [Spells, run]
  exact ⟨Nat.le_refl _, fun _ => ⟨skipped, split.symm, trivial⟩⟩

/-- A round that reads one part of the file: one without a fault never recovers. -/
theorem part {production recover : Parse Unit} {post : Unit → ParseState → List TokenKind → Prop}
    (reads : Spells before production post)
    (recovers : ∀ state, Spells state recover fun _ _ _ => True) :
    Spells before
      (do
        if (← Parse.attempt production).isNone then recover
        return (.inl () : Unit ⊕ Unit))
      fun result after text => result = .inl () ∧ post () after text := by
  apply bind (attempt reads)
  intro result state _
  apply ite
  · intro isNone
    apply bind (recovers state)
    intro _ recovered _
    apply pure
    rintro _ - text ⟨value, rfl, -⟩
    simp at isNone
  · intro _
    apply pure
    rintro text ⟨value, -, holds⟩
    rw [List.append_nil]
    exact ⟨rfl, holds⟩

theorem headerStatements : Derives before headerStatements Grammar.headerStatement∗ := by
  have rounds : Derives before Parse.headerStatements (Grammar.headerStatement∗ * 1) := by
    apply loopItems
    · simp only [Grammar.headerStatement, Grammar.announcement, Language.mem_add,
        Grammar.nil_mem_mul]
      simp
    · rintro - state
      have statement {production : Parse Unit}
          (reads : Derives state production Grammar.headerStatement) := part reads fun state =>
        @recoverStatement state
      apply bindOk (peek_run state)
      split
      · apply bindOk rfl
        apply (statement (importStatement.imp fun _ _ _ _ _ ofPart => .inl ofPart)).imp
        rintro _ after text - - ⟨rfl, ofPart⟩
        exact ofPart
      · apply bindOk rfl
        apply (statement (sequenceableStatement.imp fun _ _ _ _ _ ofPart => .inr ofPart)).imp
        rintro _ after text - - ⟨rfl, ofPart⟩
        exact ofPart
      · apply bindOk rfl
        exact pure rfl
  rwa [mul_one] at rounds

/-- Declarations are read one after another, up to the end of the file. -/
theorem declarations : Spells before (declarations options) fun _ after text =>
    (before.TakesIntegers integers → text ∈ (Grammar.declaration integers)∗) ∧
      (ahead after).kind = .eof := by
  apply loop fun _ state read => before.TakesIntegers integers →
    state.TakesIntegers integers ∧ read ∈ (Grammar.declaration integers)∗
  · exact fun takes => ⟨takes, Language.nil_mem_kstar _⟩
  · intro _ state read held takes
    obtain ⟨takesHere, isItems⟩ := held takes
    exact ⟨{ takesHere with }, isItems⟩
  · rintro - state
    apply bindOk (peek_run state)
    apply ite
    · intro atEnd
      apply pure
      intro read held
      simp only [Round, List.append_nil]
      exact ⟨fun takes => (held takes).2, atEnd⟩
    · intro _
      have reads : Spells state (Parse.declaration options) _ :=
        (declaration integers).keeping .declaration
      apply (part reads fun state => @recoverDeclaration state).imp
      rintro _ after text - - ⟨rfl, ⟨taken, ofPart⟩, keeps⟩ read held
      refine ⟨taken, fun takes => ?_⟩
      obtain ⟨takesHere, isItems⟩ := held takes
      exact ⟨keeps integers takesHere, Grammar.append_mem_kstar isItems (ofPart takesHere)⟩

/-- A file is read as the grammar has it, where its enums are stored as what the state takes for
integers. -/
theorem file : Spells before (file options) fun _ after text =>
    (before.TakesIntegers integers → text ∈ Grammar.file integers) ∧ (ahead after).kind = .eof := by
  rw [Grammar.file, mul_assoc]
  apply bind (packageStatement.keeping (.keepsIntegers_packageStatement options))
  intro _ packaged _
  apply bind (headerStatements.keeping .keepsIntegers_headerStatements)
  intro _ read _
  apply (declarations integers).imp
  rintro _ after declared - - ⟨isDeclared, atEnd⟩ header ⟨isHeader, keepsRead⟩ start
    ⟨isStart, keeps⟩
  refine ⟨fun takes => ?_, atEnd⟩
  have takesRead := keepsRead integers (keeps integers takes)
  exact Language.append_mem_mul isStart (Language.append_mem_mul isHeader (isDeclared takesRead))

end Files

end Spells

end Parse

end DriverIdl
