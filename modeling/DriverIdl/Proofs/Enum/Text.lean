import DriverIdl.Proofs.Grammar.Soundness
import Mathlib.Data.Nat.Digits.Defs

/-!
# What the members of an enum are spelled by

A member is a name with a value behind it: a number, the name of an earlier member, or nothing.  A run
without an error cuts the tokens between the braces into one such text for each member that it
answers, and the value of each is the one that its text tells.
-/

namespace DriverIdl

section Literals

/-- The number that a digit stands for, in any base up to sixteen. -/
def digitValue (digit : Char) : Nat :=
  if digit.isDigit then digit.toNat - '0'.toNat else digit.toNat - 'a'.toNat + 10

/-- A digit of a base, where letters count on from nine. -/
def IsDigitOf (base : Nat) (digit : Char) : Prop :=
  (digit.isDigit = true ∨ 'a' ≤ digit ∧ digit ≤ 'f') ∧ digitValue digit < base

/-- A text that spells a number: digits of base ten, or of base sixteen behind `0x`.  Letters may be
large or small. -/
def SpellsNumber (text : String) (number : Nat) : Prop :=
  ∃ base digits,
    (base = 16 ∧ text.toList.map Char.toLower = '0' :: 'x' :: digits ∨
      base = 10 ∧ text.toList.map Char.toLower = digits) ∧
    digits ≠ [] ∧ (∀ digit ∈ digits, IsDigitOf base digit) ∧
    number = Nat.ofDigits base (digits.reverse.map digitValue)

/-- What a character is worth as a digit; as much as the base if it is none. -/
def digitPlace (base : Nat) (digit : Char) : Nat :=
  if digit.isDigit then digit.toNat - '0'.toNat
  else if 'a' ≤ digit && digit ≤ 'f' then digit.toNat - 'a'.toNat + 10
  else base

/-- Reads one more digit. -/
def readDigit (base value : Nat) (digit : Char) : Option Nat :=
  if digitPlace base digit < base then some (value * base + digitPlace base digit) else none

theorem digitsValue?_eq (base : Nat) (digits : List Char) :
    digitsValue? base digits =
      if digits.isEmpty then none else digits.foldlM (readDigit base) 0 := rfl

theorem isDigitOf_of_digitPlace_lt {base : Nat} {digit : Char} (isDigit : digitPlace base digit < base) :
    IsDigitOf base digit ∧ digitPlace base digit = digitValue digit := by
  unfold IsDigitOf
  have place : digitPlace base digit = digitValue digit ∧
      (digit.isDigit = true ∨ 'a' ≤ digit ∧ digit ≤ 'f') := by
    unfold digitPlace at isDigit ⊢
    unfold digitValue
    by_cases decimal : digit.isDigit = true
    · simp [decimal]
    · by_cases letter : 'a' ≤ digit ∧ digit ≤ 'f'
      · simp [decimal, letter]
      · simp [decimal, letter] at isDigit
  exact ⟨⟨place.2, place.1 ▸ isDigit⟩, place.1⟩

/-- Digits are read from the front, each behind what was read before it. -/
theorem digits_of_foldlM {base known number : Nat} {digits : List Char}
    (found : digits.foldlM (readDigit base) known = some number) :
    (∀ digit ∈ digits, IsDigitOf base digit) ∧
      number = known * base ^ digits.length +
        Nat.ofDigits base (digits.reverse.map digitValue) := by
  induction digits generalizing known with
  | nil => simpa using (Option.some.inj found).symm
  | cons digit rest ih =>
      rw [List.foldlM_cons] at found
      obtain ⟨next, isNext, others⟩ := Option.bind_eq_some_iff.mp found
      obtain ⟨areDigits, rfl⟩ := ih others
      obtain ⟨isDigit, read⟩ := Option.ite_none_right_eq_some.mp isNext
      obtain rfl := Option.some.inj read
      obtain ⟨isDigit, place⟩ := isDigitOf_of_digitPlace_lt isDigit
      refine ⟨List.forall_mem_cons.mpr ⟨isDigit, areDigits⟩, ?_⟩
      rw [place, List.reverse_cons, List.map_append, Nat.ofDigits_append, List.length_map,
        List.length_reverse, List.length_cons, Nat.pow_succ]
      simp only [List.map_cons, List.map_nil, Nat.ofDigits_singleton]
      ring

theorem spellsNumber_of_literalValue? {text : String} {number : Nat}
    (known : literalValue? text = some number) :
    SpellsNumber text number ∧ number ≤ greatestLiteral := by
  have ofDigits {base : Nat} {digits : List Char} (found : digitsValue? base digits = some number) :
      digits ≠ [] ∧ (∀ digit ∈ digits, IsDigitOf base digit) ∧
        number = Nat.ofDigits base (digits.reverse.map digitValue) := by
    rw [digitsValue?_eq] at found
    split at found
    · cases found
    · rename_i notEmpty
      obtain ⟨areDigits, value⟩ := digits_of_foldlM found
      exact ⟨by simpa using notEmpty, areDigits, by simpa using value⟩
  unfold literalValue? at known
  obtain ⟨found, bounded⟩ := Option.filter_eq_some_iff.mp known
  refine ⟨?_, by simpa using bounded⟩
  split at found
  · rename_i digits isHex
    exact ⟨16, digits, .inl ⟨rfl, isHex⟩, ofDigits found⟩
  · exact ⟨10, _, .inr ⟨rfl, rfl⟩, ofDigits found⟩

end Literals

/-- The value of a member that tells none: one more than that of the member before it, and zero for
the first. -/
def followingValue (earlier : List EnumMember) : Int :=
  (earlier.getLast?.map fun member => member.value + 1).getD 0

/-- The tokens behind the name of a member, and the value that they tell. -/
inductive EnumValueText (earlier : List EnumMember) : List Token → Int → Prop where
  | following : EnumValueText earlier [] (followingValue earlier)
  | number {assign literal : Token} {number : Nat} (isAssign : assign.kind = .assign)
      (isNumber : literal.kind = .number) (spells : SpellsNumber literal.text number) :
      EnumValueText earlier [assign, literal] number
  | negated {assign minus literal : Token} {number : Nat} (isAssign : assign.kind = .assign)
      (isMinus : minus.kind = .minus) (isNumber : literal.kind = .number)
      (spells : SpellsNumber literal.text number) :
      EnumValueText earlier [assign, minus, literal] (-number)
  | same {assign name : Token} {member : EnumMember} (isAssign : assign.kind = .assign)
      (isName : name.kind = .identifier) (listed : member ∈ earlier)
      (named : member.name = name.text) : EnumValueText earlier [assign, name] member.value

/-- The tokens of members behind earlier ones, and all members.  A comma stands between two members,
and one may stand behind the last. -/
inductive EnumMembersText : List EnumMember → List Token → List EnumMember → Prop where
  | done {earlier : List EnumMember} : EnumMembersText earlier [] earlier
  | last {earlier : List EnumMember} {member : EnumMember} {text : List Token}
      (value : EnumValueText earlier text member.value) :
      EnumMembersText earlier (⟨.identifier, member.name, member.place⟩ :: text)
        (earlier ++ [member])
  | more {earlier all : List EnumMember} {member : EnumMember} {comma : Token}
      {text rest : List Token} (value : EnumValueText earlier text member.value)
      (isComma : comma.kind = .comma) (later : EnumMembersText (earlier ++ [member]) rest all) :
      EnumMembersText earlier
        (⟨.identifier, member.name, member.place⟩ :: (text ++ comma :: rest)) all

/-- The tokens of an enum, somewhere in a file: its members stand between braces behind its name and
its base. -/
def EnumText (tokens : List Token) (declared : EnumType) : Prop :=
  ∃ early keyword base opening body closing late,
    tokens = early ++ keyword :: ⟨.identifier, declared.name, declared.place⟩ ::
        (base ++ opening :: (body ++ closing :: late)) ∧
      keyword.kind = .enum ∧ base.map Token.kind ∈ Grammar.enumBase Grammar.integerType ∧
      opening.kind = .braceOpen ∧ closing.kind = .braceClose ∧
      EnumMembersText [] body declared.members

/-- Names are distinct and values are in the range of a shape. -/
def ProperMembers (shape : IntShape) (members : List EnumMember) : Prop :=
  (members.map EnumMember.name).Nodup ∧
    ∀ member ∈ members, shape.least ≤ member.value ∧ member.value ≤ shape.greatest

/-- An enum has members with names of their own and with values in the range of its base. -/
def ProperEnum (declared : EnumType) : Prop :=
  declared.members ≠ [] ∧
    ∃ shape, declared.base.shape? = some shape ∧ ProperMembers shape declared.members

namespace Parse

open ParseState

variable {mark : Nat} {known : Prop} {before after : ParseState} {options : Options}

/-- A value is told by the tokens that were taken for it. -/
theorem enumValue_ok {members : List EnumMember} {value : Int}
    (run : enumValue members before = .ok value after) :
    ∃ text, before.tokens = text ++ after.tokens ∧
      ∀ assign : Token, assign.kind = .assign → EnumValueText members (assign :: text) value := by
  obtain ⟨negative, signed, eatRun, rest⟩ := bind_eq_ok.mp run
  obtain ⟨token, taken, nextRun, rest⟩ := bind_eq_ok.mp rest
  have takes : token.kind ≠ .eof → signed.tokens = token :: taken.tokens := by
    rw [next_run] at nextRun
    cases nextRun
    exact fun notEnd => (takes_ahead notEnd).tokens
  have sign := eat_ok (by decide) eatRun
  cases kind : token.kind
  case number =>
    have split := takes (by simp [kind])
    simp only [kind] at rest
    cases literal : literalValue? token.text with
    | none =>
        rw [literal] at rest
        cases rest
    | some number =>
        rw [literal] at rest
        have spells := (spellsNumber_of_literalValue? literal).1
        rcases sign with ⟨rfl, minus, takesMinus, isMinus⟩ | ⟨rfl, rfl, -⟩
        · cases rest
          refine ⟨[minus, token], by rw [takesMinus.tokens, split]; rfl, fun assign isAssign => ?_⟩
          exact .negated isAssign isMinus kind spells
        · cases rest
          exact ⟨[token], split, fun assign isAssign => .number isAssign kind spells⟩
  case identifier =>
    have split := takes (by simp [kind])
    simp only [kind] at rest
    rcases sign with ⟨rfl, -⟩ | ⟨rfl, rfl, -⟩
    · cases rest
    · cases found : members.find? fun member => member.name == token.text with
      | none =>
          simp only [found] at rest
          cases rest
      | some member =>
          simp only [found] at rest
          cases rest
          have listed := List.mem_of_find?_eq_some found
          refine ⟨[token], split, fun assign isAssign => .same isAssign kind listed ?_⟩
          simpa using List.find?_some found
  all_goals
    simp only [kind] at rest
    cases rest

/-- One more member was read, in the range of the base and under a name of its own. -/
structure ReadsMember (base : Primitive) (members : List EnumMember) (following : Int)
    (before : ParseState) (member : EnumMember) (result : List EnumMember × Int × Bool)
    (after : ParseState) : Prop where
  all : result.1 = members ++ [member]
  next : result.2.1 = if member.value + 1 ≤ greatestLiteral then member.value + 1 else following
  fresh : ∀ known ∈ members, known.name ≠ member.name
  inRange : ∀ shape, base.shape? = some shape →
    shape.least ≤ member.value ∧ member.value ≤ shape.greatest
  text : ∃ text ending,
    before.tokens = ⟨.identifier, member.name, member.place⟩ :: (text ++ (ending ++ after.tokens)) ∧
      (following = followingValue members → EnumValueText members text member.value) ∧
      (result.2.2 = true ∧ (∃ comma, ending = [comma] ∧ comma.kind = .comma) ∨
        result.2.2 = false ∧ ending = [])

theorem Reading.readsMember (base : Primitive) (members : List EnumMember) (following : Int) :
    Reading options mark known before (Parse.enumMember base members following) fun result after =>
      ∃ member, ReadsMember base members following before member result after := by
  apply bind ((Reading.expect rfl).andRun (expect_ok (by decide)))
  intro name named _ _
  apply bind ((Reading.eat rfl).andRun (eat_ok (by decide)))
  intro assigned state _ _
  refine bindIf (?_ : _ → Reading _ _ _ _ _ fun value after =>
    ∃ text, named.tokens = text ++ after.tokens ∧
      (following = followingValue members → EnumValueText members text value)) ?_ ?_
  · intro isAssigned
    apply ((Reading.enumValue members).andRun enumValue_ok).imp
    rintro value valued ⟨-, -, -, taken⟩ - ⟨reads, -, text, split, spells⟩
    rcases taken with ⟨-, assign, takes, isAssign⟩ | ⟨notAssigned, -⟩
    · exact ⟨reads, assign :: text, by rw [takes.tokens, split]; rfl, fun _ => spells assign isAssign⟩
    · exact absurd isAssigned (by simp [notAssigned])
  · intro notAssigned
    apply pure
    rintro ⟨-, -, -, taken⟩ -
    rcases taken with ⟨isAssigned, -⟩ | ⟨-, rfl, -⟩
    · exact absurd isAssigned notAssigned
    · exact ⟨[], rfl, fun isNext => isNext ▸ .following⟩
  intro value valued _
  apply reportIf
  intro checked _
  apply Ensures.ite
  · intro _
    apply Ensures.bindReport
    intro reported
    apply Ensures.bindOk rfl
    apply Ensures.bind (Ensures.eat (by decide))
    intro more after _ _
    exact Ensures.pure fun ⟨impossible, _⟩ => impossible.elim
  · intro isNew
    apply Ensures.bindOk rfl
    apply bind ((Reading.eat rfl).andRun (eat_ok (by decide)))
    intro more after _ _
    apply pure
    rintro ⟨⟨⟨⟨⟨-, -, -, takesName, isName⟩, -⟩, -, text, split, spells⟩, rfl, inRange⟩, -, -,
      comma⟩ -
    have isToken : name = ⟨.identifier, name.text, name.place⟩ := by rw [← isName]
    refine ⟨⟨name.text, value, name.place⟩, rfl, rfl, ?_, ?_, ?_⟩
    · simpa using isNew
    · intro shape shaped
      simpa [Primitive.range?, shaped, not_or] using inRange
    · rcases comma with ⟨rfl, token, takes, isComma⟩ | ⟨rfl, rfl, -⟩
      · refine ⟨text, [token], ?_, spells, .inl ⟨rfl, token, rfl, isComma⟩⟩
        rw [← isToken, takesName.tokens, split, takes.tokens]
        rfl
      · refine ⟨text, [], ?_, spells, .inr ⟨rfl, rfl⟩⟩
        rw [← isToken, takesName.tokens, split]
        rfl

namespace ReadsMember

variable {base : Primitive} {members : List EnumMember} {following : Int} {member : EnumMember}
  {result : List EnumMember × Int × Bool} {after : ParseState}

/-- The value of the next member follows that of this one, where it has a shape. -/
theorem next_eq (reads : ReadsMember base members following before member result after)
    {shape : IntShape} (shaped : base.shape? = some shape) :
    result.2.1 = followingValue result.1 := by
  have bounded := (reads.inRange shape shaped).2
  have room : member.value + 1 ≤ greatestLiteral := by
    have : shape.greatest + 1 ≤ greatestLiteral := by cases shape <;> decide
    omega
  rw [reads.next, if_pos room, reads.all]
  simp [followingValue]

end ReadsMember

theorem ReadsMember.proper {shape : IntShape} (shaped : base.shape? = some shape)
    (reads : ReadsMember base members following before member result after)
    (kept : ProperMembers shape members) : ProperMembers shape result.1 := by
  rw [reads.all]
  refine ⟨nodup_map_append kept.1 (by simpa using reads.fresh), fun other listed => ?_⟩
  rcases List.mem_append.mp listed with earlier | last
  · exact kept.2 other earlier
  · obtain rfl := List.mem_singleton.mp last
    exact reads.inRange shape shaped

/-- Tokens in front are the text of members, whatever members the tokens behind may spell. -/
def MembersSoFar (origin : List Token) (members : List EnumMember) (ahead : List Token) : Prop :=
  ∃ soFar, origin = soFar ++ ahead ∧
    ∀ rest all, EnumMembersText members rest all → EnumMembersText [] (soFar ++ rest) all

theorem MembersSoFar.goesOn {origin text ahead : List Token} {comma : Token}
    (soFar : MembersSoFar origin members
      (⟨.identifier, member.name, member.place⟩ :: (text ++ comma :: ahead)))
    (value : EnumValueText members text member.value) (isComma : comma.kind = .comma) :
    MembersSoFar origin (members ++ [member]) ahead := by
  obtain ⟨taken, split, extends'⟩ := soFar
  refine ⟨taken ++ ⟨.identifier, member.name, member.place⟩ :: (text ++ [comma]), ?_, ?_⟩
  · rw [split]
    simp
  · intro rest all later
    have whole := extends' _ _ (.more value isComma later)
    simpa using whole

theorem MembersSoFar.last {origin text ahead : List Token}
    (soFar : MembersSoFar origin members
      (⟨.identifier, member.name, member.place⟩ :: (text ++ ahead)))
    (value : EnumValueText members text member.value) :
    ∃ body, origin = body ++ ahead ∧ EnumMembersText [] body (members ++ [member]) := by
  obtain ⟨taken, split, extends'⟩ := soFar
  refine ⟨taken ++ ⟨.identifier, member.name, member.place⟩ :: text, ?_, extends' _ _ (.last value)⟩
  rw [split]
  simp

theorem MembersSoFar.done {origin ahead : List Token}
    (soFar : MembersSoFar origin members ahead) :
    ∃ body, origin = body ++ ahead ∧ EnumMembersText [] body members := by
  obtain ⟨taken, split, extends'⟩ := soFar
  exact ⟨taken, split, by simpa using extends' [] members .done⟩

/-- The members of an enum stand in front of what a clean run leaves. -/
theorem Reading.membersText {base : Primitive} {shape : IntShape}
    (shaped : base.shape? = some shape) :
    Reading options mark known before (Parse.enumMembers base) fun members after =>
      (∃ body, before.tokens = body ++ after.tokens ∧ EnumMembersText [] body members) ∧
        ProperMembers shape members := by
  apply loop fun current state =>
    current.2 = followingValue current.1 ∧ ProperMembers shape current.1 ∧
      MembersSoFar before.tokens current.1 state.tokens
  · intro _ _
    exact ⟨rfl, ⟨List.nodup_nil, by simp⟩, [], rfl, fun _ _ => id⟩
  · exact fun _ _ => id
  · rintro ⟨members, following⟩ state _
    apply Ensures.bindOk (peek_run state)
    split
    · apply pure
      rintro ⟨-, -, -, proper, soFar⟩ -
      exact ⟨soFar.done, proper⟩
    · apply bind (Reading.checkBodyGoesOn _)
      intro _ checked _ _
      apply bind (Reading.readsMember base members following)
      rintro ⟨extended, next, more⟩ read _ _
      simp only
      split
      · rename_i goesOn
        apply pure
        rintro ⟨⟨⟨-, -, isNext, proper, soFar⟩, -, rfl⟩, -, member, reads⟩ -
        obtain ⟨text, ending, taken, told, ⟨-, comma, rfl, isComma⟩ | ⟨ends, -⟩⟩ := reads.text
        · rw [taken] at soFar
          obtain rfl : extended = members ++ [member] := reads.all
          refine ⟨⟨reads.next_eq shaped, reads.proper shaped proper, ?_⟩, ?_⟩
          · exact soFar.goesOn (told isNext) isComma
          · rw [taken]
            simp
            omega
        · exact absurd goesOn (by simpa using ends)
      · rename_i ends
        apply pure
        rintro ⟨⟨⟨-, -, isNext, proper, soFar⟩, -, rfl⟩, -, member, reads⟩ -
        obtain ⟨text, ending, taken, told, ⟨goesOn, -⟩ | ⟨-, rfl⟩⟩ := reads.text
        · exact absurd goesOn ends
        · rw [taken] at soFar
          obtain rfl : extended = members ++ [member] := reads.all
          exact ⟨soFar.last (told isNext), reads.proper shaped proper⟩

/-- What a run without an error ensures of a sound state. -/
theorem Ensures.ofClean {α : Type} {production : Parse α}
    {post : α → ParseState → Prop} {value : α} (ensures : Ensures 0 True before production post)
    (run : production before = .ok value after) (clean : after.errors = 0) (sound : before.Sound) :
    before.errors = 0 ∧ post value after := by
  obtain ⟨advanced, ensured⟩ := ensures.ok run sound.since
  exact ⟨advanced.clean clean, (ensured clean trivial sound).2⟩

/-- An enum that a run without an error reads is what its tokens spell. -/
theorem EnumFromText.spelled {tokens : List Token} {declared : EnumType}
    (fromText : EnumFromText options tokens declared) :
    EnumText tokens declared ∧ ProperEnum declared := by
  obtain ⟨named, based, opened, read, written⟩ := fromText
  obtain ⟨early, keyword, split, isKeyword⟩ := written.head
  obtain ⟨opening, takesOpening, isOpening⟩ := written.brace
  obtain ⟨closing, late, takesClosing, isClosing⟩ := written.closed
  obtain ⟨openedClean, -⟩ := (Reading.enumMembers declared.base : Reading options 0 _ _ _ _).ofClean
    written.members written.clean written.soundInside
  have basedClean : based.errors = 0 := by rwa [takesOpening.same] at openedClean
  obtain ⟨namedClean, -, integral⟩ :=
    Ensures.ofClean Reading.enumBase written.base basedClean written.sound
  obtain ⟨shape, shaped⟩ := Option.isSome_iff_exists.mp integral
  obtain ⟨-, -, ⟨body, bodySplit, spelled⟩, proper⟩ :=
    (Reading.membersText shaped : Reading options 0 _ _ _ _).ofClean written.members written.clean
      written.soundInside
  obtain ⟨base, baseSplit, isBase⟩ :=
    ((Spells.enumBase Grammar.integerType).ok written.base).2 (by rw [basedClean, namedClean])
  refine ⟨⟨early, keyword, base, opening, body, closing, late.tokens, ?_, isKeyword,
    isBase written.sound.takesIntegers, isOpening, isClosing, spelled⟩, written.notEmpty, shape,
    shaped, proper⟩
  rw [split, baseSplit, takesOpening.tokens, bodySplit, takesClosing.tokens]

end Parse

end DriverIdl
