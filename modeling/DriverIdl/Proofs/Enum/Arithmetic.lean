import DriverIdl.Proofs.Enum.Text

/-!
# Arithmetic of 128 bits on enum values

A machine holds the values of enum members in signed integers of 128 bits.  Here the members of an
enum are read with such integers: a literal whose digits overflow is an error of the file, the value
behind one that has no successor is left out, and an overflow of any other operation traps.  Nothing
ever traps, and what is read is what is read with numbers without a bound.
-/

namespace DriverIdl

/-- The signed integers of 128 bits. -/
def IsInt128 (number : Int) : Prop := -2 ^ 127 ≤ number ∧ number < 2 ^ 127

instance : DecidablePred IsInt128 := fun _ => inferInstanceAs (Decidable (_ ∧ _))

/-- A result of arithmetic, unless it overflows. -/
def checked (number : Int) : Option Int := if IsInt128 number then some number else none

theorem checked_eq_some {number : Int} (bounded : IsInt128 number) : checked number = some number :=
  if_pos bounded

theorem isInt128_of_natAbs_le {number : Int} (bounded : number.natAbs ≤ greatestLiteral) :
    IsInt128 number := by
  have greatest : greatestLiteral = 2 ^ 127 - 1 := rfl
  rw [greatest] at bounded
  unfold IsInt128
  omega

section Literals

/-- Reads one more digit, unless a result overflows. -/
def readDigit128 (base : Nat) (value : Int) (digit : Char) : Option Int :=
  if digitPlace base digit < base then
    checked (value * base) >>= fun moved => checked (moved + digitPlace base digit)
  else none

/-- The number that digits of a base denote; none if a character is no digit or a result overflows. -/
def digitsValue128? (base : Nat) (digits : List Char) : Option Int :=
  if digits.isEmpty then none else digits.foldlM (readDigit128 base) 0

/-- The value of an integer literal, none if a result overflows. -/
def literalValue128? (text : String) : Option Int :=
  let letters := text.toList.map Char.toLower
  if ['0', 'x'] <+: letters then digitsValue128? 16 (letters.drop 2) else digitsValue128? 10 letters

/-- A number as an integer of 128 bits, if it is one. -/
def bounded? (number : Nat) : Option Int :=
  if number ≤ greatestLiteral then some number else none

theorem checked_natCast (number : Nat) : checked number = bounded? number := by
  have same : IsInt128 number ↔ number ≤ greatestLiteral := by
    have greatest : greatestLiteral = 2 ^ 127 - 1 := rfl
    rw [greatest, IsInt128]
    omega
  simp only [checked, bounded?, same]

theorem bounded?_eq_none {number : Nat} (tooGreat : greatestLiteral < number) :
    bounded? number = none :=
  if_neg (Nat.not_le.mpr tooGreat)

theorem bounded?_eq_some {number : Nat} (fits : number ≤ greatestLiteral) :
    bounded? number = some (number : Int) :=
  if_pos fits

/-- A digit overflows where the number behind it is too great. -/
theorem readDigit128_natCast (base known : Nat) (digit : Char) :
    readDigit128 base known digit = readDigit base known digit >>= bounded? := by
  unfold readDigit128 readDigit
  split
  · have moved : checked (known * base : Int) = bounded? (known * base) := by
      rw [← checked_natCast, Nat.cast_mul]
    rw [moved]
    rcases Nat.lt_or_ge greatestLiteral (known * base) with tooGreat | fits
    · rw [bounded?_eq_none tooGreat, Option.bind_eq_bind, Option.bind_eq_bind, Option.bind_none,
        Option.bind_some, bounded?_eq_none (Nat.lt_add_right _ tooGreat)]
    · rw [bounded?_eq_some fits, Option.bind_eq_bind, Option.bind_eq_bind, Option.bind_some,
        Option.bind_some, ← checked_natCast, Nat.cast_add]
  · rfl

/-- Digits overflow where the number that they denote is too great. -/
theorem foldlM_readDigit128 {base : Nat} (positive : 0 < base) {known : Nat} (digits : List Char)
    (start : known ≤ greatestLiteral) :
    digits.foldlM (readDigit128 base) (known : Int) =
      digits.foldlM (readDigit base) known >>= bounded? := by
  induction digits generalizing known with
  | nil => exact (bounded?_eq_some start).symm
  | cons digit rest ih =>
      rw [List.foldlM_cons, List.foldlM_cons, readDigit128_natCast, bind_assoc, bind_assoc]
      refine congrArg _ (funext fun next => ?_)
      rcases Nat.lt_or_ge greatestLiteral next with tooGreat | fits
      · rw [bounded?_eq_none tooGreat]
        -- Digits behind a number that is too great leave it as great at least.
        refine (Option.bind_eq_none_iff.mpr fun number found => ?_).symm
        obtain ⟨-, rfl⟩ := digits_of_foldlM found
        apply bounded?_eq_none
        have kept := Nat.le_mul_of_pos_right next (Nat.pow_pos positive : 0 < base ^ rest.length)
        omega
      · rw [bounded?_eq_some fits]
        exact ih fits

theorem digitsValue128?_eq {base : Nat} (positive : 0 < base) (digits : List Char) :
    digitsValue128? base digits =
      ((digitsValue? base digits).filter (· ≤ greatestLiteral)).map Nat.cast := by
  rw [digitsValue128?, digitsValue?_eq]
  split
  · rfl
  · have read := foldlM_readDigit128 positive digits (Nat.zero_le greatestLiteral)
    rw [Nat.cast_zero] at read
    rw [read]
    cases digits.foldlM (readDigit base) 0 with
    | none => rfl
    | some number =>
        rw [Option.bind_eq_bind, Option.bind_some, bounded?]
        by_cases fits : number ≤ greatestLiteral <;> simp only [fits, Option.filter_some] <;> rfl

theorem literalValue128?_eq (text : String) :
    literalValue128? text = (literalValue? text).map Nat.cast := by
  unfold literalValue128? literalValue?
  generalize text.toList.map Char.toLower = letters
  split
  · rename_i digits
    have hexadecimal : ['0', 'x'] <+: '0' :: 'x' :: digits := ⟨digits, rfl⟩
    exact (if_pos hexadecimal).trans (digitsValue128?_eq (by decide) digits)
  · rename_i decimal
    have plain : ¬ ['0', 'x'] <+: letters := fun ⟨digits, eq⟩ => decimal digits eq.symm
    exact (if_neg plain).trans (digitsValue128?_eq (by decide) letters)

end Literals

/-- A result of arithmetic; an overflow traps. -/
def trapping (number : Int) : OptionT Parse Int := OptionT.mk (pure (checked number))

namespace Parse

/-- Reads the value of an enum member, where negation may overflow. -/
def enumValue128 (members : List EnumMember) : OptionT Parse Int := do
  let negative ← eat .minus
  let token ← next
  match token.kind with
  | .number =>
    match literalValue128? token.text with
    | some value => if negative then trapping (-value) else return value
    | none => (fail token.place (.invalidNumber token.text) : Parse Int)
  | .identifier =>
    if negative then (unexpected token "an enum value" : Parse Int)
    else match members.find? fun member => member.name == token.text with
      | some member => return member.value
      | none => (fail token.place (.unknownEnumMember token.text) : Parse Int)
  | _ => (unexpected token "an enum value" : Parse Int)

/-- Reads one member of an enum, where the value behind it may overflow. -/
def enumMember128 (base : Primitive) (members : List EnumMember) (following : Int) :
    OptionT Parse (List EnumMember × Int × Bool) := do
  let name ← expect .identifier "an enum member"
  let value ← if ← eat .assign then enumValue128 members else pure following
  if base.range?.any fun (least, greatest) => value < least || greatest < value then
    report name.place (.enumRange value name.text base.name)
  let extended ←
    if members.any fun member => member.name == name.text then do
      report name.place (.repeatedEnumMember name.text)
      pure members
    else pure (members ++ [⟨name.text, value, name.place⟩])
  let after := (checked (value + 1)).getD following
  return (extended, after, ← eat .comma)

/-- Reads one more member of an enum, behind which its value may overflow. -/
def enumRound128 (base : Primitive) :
    List EnumMember × Int → OptionT Parse ((List EnumMember × Int) ⊕ List EnumMember)
  | (members, following) => do
    let token ← peek
    if token.kind = .braceClose then return .inr members
    checkBodyGoesOn token
    let (extended, after, more) ← enumMember128 base members following
    if more then return .inl (extended, after) else return .inr extended

/-- A step that ends a loop where it traps. -/
def stepOrTrap {σ α : Type} (step : σ → OptionT Parse (σ ⊕ α)) (current : σ) :
    Parse (σ ⊕ Option α) := do
  match ← (step current).run with
  | some (.inl next) => return .inl next
  | some (.inr result) => return .inr (some result)
  | none => return .inr none

/-- Repeats a step until it answers a result or traps. -/
def loopTrapping {σ α : Type} (step : σ → OptionT Parse (σ ⊕ α)) (start : σ) : OptionT Parse α :=
  OptionT.mk (loop (stepOrTrap step) start)

/-- Reads the members of an enum with integers of 128 bits. -/
def enumMembers128 (base : Primitive) : OptionT Parse (List EnumMember) :=
  loopTrapping (enumRound128 base) ([], 0)

section Runs

variable {α β σ : Type} {before : ParseState} {post : α → Prop}

/-- A run that may trap does what another does and does not trap, and something holds of its result. -/
def NeverTraps (before : ParseState) (production : OptionT Parse α) (exact : Parse α)
    (post : α → Prop) : Prop :=
  production.run before = (some <$> exact) before ∧
    ∀ value after, exact before = .ok value after → post value

namespace NeverTraps

theorem lift (exact : Parse α) : NeverTraps before (liftM exact) exact fun _ => True :=
  ⟨rfl, fun _ _ _ => trivial⟩

theorem pure {value : α} (holds : post value) :
    NeverTraps before (Pure.pure value) (Pure.pure value) post :=
  ⟨rfl, fun _ _ run => by cases run; exact holds⟩

theorem fail {place : Position} {fault : SourceFault} :
    NeverTraps before (liftM (Parse.fail place fault)) (Parse.fail place fault) post :=
  ⟨rfl, fun _ _ run => by cases run⟩

theorem trapping {number : Int} {post : Int → Prop} (bounded : IsInt128 number)
    (holds : post number) : NeverTraps before (trapping number) (Pure.pure number) post := by
  have runs : DriverIdl.trapping number = Pure.pure number := by
    rw [DriverIdl.trapping, checked_eq_some bounded]
    rfl
  rw [runs]
  exact .pure holds

theorem bind {first : OptionT Parse α} {exact : Parse α} {second : α → OptionT Parse β}
    {exactSecond : α → Parse β} {middle : α → Prop} {post : β → Prop}
    (starts : NeverTraps before first exact middle)
    (goesOn : ∀ value after, middle value →
      NeverTraps after (second value) (exactSecond value) post) :
    NeverTraps before (first >>= second) (exact >>= exactSecond) post := by
  have opened : (first >>= second).run before = EStateM.bind first.run _ before := rfl
  unfold NeverTraps
  rw [opened, EStateM.bind, starts.1]
  simp only [Functor.map, EStateM.map, Bind.bind, EStateM.bind]
  cases run : exact before with
  | ok value after => exact goesOn value after (starts.2 value after run)
  | error fault after => exact ⟨rfl, fun _ _ impossible => by cases impossible⟩

/-- Sequence behind a choice. -/
theorem bindIf {condition : Prop} [Decidable condition] {first other : OptionT Parse α}
    {exact exactOther : Parse α} {second : α → OptionT Parse β} {exactSecond : α → Parse β}
    {middle : α → Prop} {post : β → Prop}
    (holds : condition → NeverTraps before first exact middle)
    (fails : ¬condition → NeverTraps before other exactOther middle)
    (goesOn : ∀ value after, middle value →
      NeverTraps after (second value) (exactSecond value) post) :
    NeverTraps before (if condition then first >>= second else other >>= second)
      (if condition then exact >>= exactSecond else exactOther >>= exactSecond) post := by
  split
  · exact (holds ‹_›).bind goesOn
  · exact (fails ‹_›).bind goesOn

/-- Sequence behind an error that is reported on a condition. -/
theorem reportIf {condition : Prop} [Decidable condition] {place : Position} {fault : SourceFault}
    {rest : PUnit → OptionT Parse α} {exactRest : PUnit → Parse α}
    (goesOn : ∀ after, NeverTraps after (rest ⟨⟩) (exactRest ⟨⟩) post) :
    NeverTraps before (if condition then liftM (Parse.report place fault) >>= rest else rest ⟨⟩)
      (if condition then Parse.report place fault >>= exactRest else exactRest ⟨⟩) post := by
  split
  · exact (lift _).bind fun _ after _ => goesOn after
  · exact goesOn before

end NeverTraps

theorem enumValue128_neverTraps {members : List EnumMember}
    (bounded : ∀ member ∈ members, IsInt128 member.value) :
    NeverTraps before (enumValue128 members) (enumValue members) IsInt128 := by
  apply NeverTraps.bind (.lift _)
  intro negative signed _
  apply NeverTraps.bind (.lift _)
  intro token state _
  cases kind : token.kind
  case number =>
    simp only [literalValue128?_eq]
    cases literal : literalValue? token.text with
    | none => exact .fail
    | some number =>
        have fits := (spellsNumber_of_literalValue? literal).2
        cases negative with
        | false => exact .pure (isInt128_of_natAbs_le (by simpa using fits))
        | true =>
            have isBounded : IsInt128 (-number) := isInt128_of_natAbs_le (by simpa using fits)
            exact .trapping isBounded isBounded
  case identifier =>
    simp only
    cases negative with
    | true => exact .fail
    | false =>
        simp only [Bool.false_eq_true, ↓reduceIte]
        cases found : members.find? fun member => member.name == token.text with
        | some member => exact .pure (bounded member (List.mem_of_find?_eq_some found))
        | none => exact .fail
  all_goals
    simp only
    exact .fail

theorem isInt128_checked_getD (value : Int) {following : Int} (bounded : IsInt128 following) :
    IsInt128 ((checked (value + 1)).getD following) := by
  unfold checked
  split
  · assumption
  · exact bounded

/-- The value behind one is kept if it has no successor. -/
theorem checked_getD {value following : Int} (bounded : IsInt128 value) :
    (checked (value + 1)).getD following =
      if value + 1 ≤ greatestLiteral then value + 1 else following := by
  have same : IsInt128 (value + 1) ↔ value + 1 ≤ greatestLiteral := by
    have greatest : greatestLiteral = 2 ^ 127 - 1 := rfl
    unfold IsInt128 at bounded ⊢
    rw [greatest]
    omega
  unfold checked
  simp only [same]
  split <;> rfl

/-- All values that are known so far are integers of 128 bits. -/
def AllInt128 (members : List EnumMember) (following : Int) : Prop :=
  (∀ member ∈ members, IsInt128 member.value) ∧ IsInt128 following

theorem enumMember128_neverTraps (base : Primitive) {members : List EnumMember} {following : Int}
    (bounded : AllInt128 members following) :
    NeverTraps before (enumMember128 base members following) (enumMember base members following)
      fun result => AllInt128 result.1 result.2.1 := by
  apply NeverTraps.bind (.lift _)
  intro name named _
  apply NeverTraps.bind (.lift _)
  intro assigned state _
  apply NeverTraps.bindIf (fun _ => enumValue128_neverTraps bounded.1) fun _ => .pure bounded.2
  intro value valued isBounded
  apply NeverTraps.reportIf
  intro reported
  have nextBounded := isInt128_checked_getD value bounded.2
  simp only [checked_getD isBounded] at nextBounded ⊢
  split
  · apply NeverTraps.bind (.lift _)
    intro _ repeated _
    apply NeverTraps.bind (.lift _)
    intro more after _
    exact .pure ⟨bounded.1, nextBounded⟩
  · apply NeverTraps.bind (.lift _)
    intro more after _
    refine .pure ⟨fun member listed => ?_, nextBounded⟩
    rcases List.mem_append.mp listed with earlier | last
    · exact bounded.1 member earlier
    · obtain rfl := List.mem_singleton.mp last
      exact isBounded

/-- Rounds that never trap make a loop that never traps. -/
theorem NeverTraps.loop {step : σ → OptionT Parse (σ ⊕ α)} {exactStep : σ → Parse (σ ⊕ α)}
    (invariant : σ → Prop) {start : σ} (holds : invariant start)
    (round : ∀ current state, invariant current →
      NeverTraps state (step current) (exactStep current) (Sum.elim invariant post)) :
    NeverTraps before (loopTrapping step start) (Parse.loop exactStep start) post := by
  have within (rounds : Nat) {current : σ} {state : ParseState} (holds : invariant current) :
      loopWithin (Parse.round (stepOrTrap step)) rounds current state =
          (some <$> loopWithin (Parse.round exactStep) rounds current) state ∧
        ∀ value after, loopWithin (Parse.round exactStep) rounds current state = .ok value after →
          post value := by
    induction rounds generalizing current state with
    | zero => exact ⟨rfl, fun _ _ impossible => by cases impossible⟩
    | succ rounds ih =>
        obtain ⟨same, keeps⟩ := round current state.counted holds
        have opened {β : Type} (step : σ → Parse (σ ⊕ β)) :
            loopWithin (Parse.round step) (rounds + 1) current state =
              EStateM.bind (step current) _ state.counted := rfl
        have stepped : stepOrTrap step current state.counted = EStateM.bind (step current).run _ _ := rfl
        simp only [Functor.map, EStateM.map] at ih ⊢
        rw [opened, opened, EStateM.bind, EStateM.bind, stepped, EStateM.bind, same]
        simp only [Functor.map, EStateM.map]
        cases run : exactStep current state.counted with
        | error fault after => exact ⟨rfl, fun _ _ impossible => by cases impossible⟩
        | ok result after =>
            have kept := keeps result after run
            cases result with
            | inl next => exact ih kept
            | inr value => exact ⟨rfl, fun _ _ run => by cases run; exact kept⟩
  exact within (before.tokens.length + 1) holds

theorem enumRound128_neverTraps (base : Primitive) {members : List EnumMember} {following : Int}
    (bounded : AllInt128 members following) :
    NeverTraps before (enumRound128 base (members, following)) (enumRound base (members, following))
      (Sum.elim (fun current => AllInt128 current.1 current.2) fun _ => True) := by
  apply NeverTraps.bind (.lift _)
  intro token ahead _
  split
  · exact .pure trivial
  · apply NeverTraps.bind (.lift _)
    intro _ checked _
    apply NeverTraps.bind (enumMember128_neverTraps base bounded)
    rintro ⟨extended, next, more⟩ read extendedBounded
    simp only
    split
    · exact .pure extendedBounded
    · exact .pure trivial

/-- No operation on the values of an enum overflows, whatever tokens are read: the members are those
that are read with numbers without a bound. -/
theorem enumMembers128_run (base : Primitive) :
    (enumMembers128 base).run = some <$> enumMembers base := by
  funext state
  have never : NeverTraps state (enumMembers128 base) (enumMembers base) fun _ => True := by
    apply NeverTraps.loop fun current : List EnumMember × Int => AllInt128 current.1 current.2
    · exact ⟨by simp, by decide⟩
    · rintro ⟨members, following⟩ state bounded
      exact enumRound128_neverTraps base bounded
  exact never.1

end Runs

end Parse

end DriverIdl
