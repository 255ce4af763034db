import DriverIdl.Proofs.Dump.TypeExpressions
import DriverIdl.Proofs.Enum.Text
import DriverIdl.Proofs.Parsing.Progress
import DriverIdl.Proofs.Text.Words

/-!
# Members of enums that are read again

Whatever an enum was read from, its members are words: each has a name and a number of its own.  They
are read again as they are, since decimal digits denote the number that they are printed for.
-/

namespace DriverIdl

section Literals

variable {digits : List Char} {number : Nat}

theorem Text.toLower_of_isDigit {digit : Char} (isDigit : digit.isDigit = true) :
    digit.toLower = digit :=
  forall_isWordChar (fun letter => letter.isDigit = true → letter.toLower = letter)
    (by decide +kernel) (by simp [isWordChar, Char.isAlphanum, isDigit]) isDigit

theorem readDigit_ten {known : Nat} {digit : Char} (isDigit : digit.isDigit = true) :
    readDigit 10 known digit = some (10 * known + (digit.toNat - '0'.toNat)) := by
  have place : digitPlace 10 digit = digit.toNat - '0'.toNat := if_pos isDigit
  have small : digit.toNat - '0'.toNat < 10 := by
    have bounds := Char.isDigit_iff_toNat.mp isDigit
    have nine : '9'.toNat = '0'.toNat + 9 := rfl
    omega
  rw [readDigit, place, if_pos small, Nat.mul_comm]

theorem foldlM_readDigit_ten {known : Nat} (areDigits : ∀ digit ∈ digits, digit.isDigit = true) :
    digits.foldlM (readDigit 10) known = some (Nat.ofDigitChars 10 digits known) := by
  induction digits generalizing known with
  | nil => simp
  | cons digit rest ih =>
      rw [List.foldlM_cons, readDigit_ten (areDigits digit List.mem_cons_self),
        Nat.ofDigitChars_cons]
      exact ih fun other listed => areDigits other (List.mem_cons_of_mem _ listed)

/-- A number is read from the digits that it is printed with. -/
theorem literalValue?_toString (bounded : number ≤ greatestLiteral) :
    literalValue? (toString number) = some number := by
  have areDigits : ∀ digit ∈ Nat.toDigits 10 number, digit.isDigit = true :=
    fun digit listed => Nat.isDigit_of_mem_toDigits (by decide) (by decide) listed
  have lowered : (toString number).toList.map Char.toLower = Nat.toDigits 10 number := by
    rw [Nat.toString_eq_ofList_toDigits, String.toList_ofList]
    exact (List.map_congr_left fun digit listed =>
      Text.toLower_of_isDigit (areDigits digit listed)).trans (List.map_id _)
  have read : digitsValue? 10 (Nat.toDigits 10 number) = some number := by
    rw [digitsValue?_eq, if_neg (by simp), foldlM_readDigit_ten areDigits,
      Nat.ofDigitChars_ten_toDigits]
  unfold literalValue?
  rw [lowered]
  split
  · rename_i digits hexadecimal
    have isDigit := areDigits 'x' (by simp [hexadecimal])
    cases isDigit
  · rw [read, Option.filter_some, if_pos (by simpa using bounded)]

end Literals

/-- The words of a number. -/
def numberWords : Int → List Word
  | .ofNat number => [(.number, toString number)]
  | .negSucc number => [(.minus, "-"), (.number, toString (number + 1))]

/-- The words of a member of an enum and the comma behind it. -/
def EnumMember.words (member : EnumMember) : List Word :=
  (.identifier, member.name) :: (.assign, "=") :: (numberWords member.value ++ [(.comma, ",")])

/-- Members of an enum that can be written: they have different names, and their values fit the
base. -/
structure WritableMembers (base : Primitive) (members : List EnumMember) : Prop where
  names : ∀ member ∈ members, Text.IsName member.name
  inRange : ∀ member ∈ members,
    (base.range?.any fun (least, greatest) => member.value < least || greatest < member.value) = false
  distinct : (members.map EnumMember.name).Nodup

theorem WritableMembers.of_append {base : Primitive} {members others : List EnumMember}
    (writable : WritableMembers base (members ++ others)) : WritableMembers base members where
  names := (List.forall_mem_append.mp writable.names).1
  inRange := (List.forall_mem_append.mp writable.inRange).1
  distinct := (List.map_append ▸ writable.distinct).of_append_left

theorem IntShape.natAbs_le {shape : IntShape} {number : Int} (least : shape.least ≤ number)
    (greatest : number ≤ shape.greatest) : number.natAbs ≤ greatestLiteral := by
  have bounds : -(greatestLiteral : Int) ≤ shape.least ∧ shape.greatest ≤ greatestLiteral := by
    cases shape <;> decide
  omega

/-- Whatever fits the base of an enum is a literal. -/
theorem WritableMembers.natAbs_le {base : Primitive} {members : List EnumMember}
    (writable : WritableMembers base members) (integral : base.isIntegral = true)
    {member : EnumMember} (listed : member ∈ members) : member.value.natAbs ≤ greatestLiteral := by
  obtain ⟨shape, shaped⟩ := Option.isSome_iff_exists.mp integral
  have inRange := writable.inRange member listed
  simp only [Primitive.range?, shaped, Option.map_some, Option.any_some, Bool.or_eq_false_iff,
    decide_eq_false_iff_not, not_lt] at inRange
  exact shape.natAbs_le inRange.1 inRange.2

namespace Parse

open ParseState

variable {α β : Type} {before after : ParseState} {base : Primitive} {members : List EnumMember}

/-- What is clean at the end was not reported. -/
theorem unreported {condition : Prop} [Decidable condition] {place : Position} {fault : SourceFault}
    {faulty : PUnit → Parse α} {other : Parse α} {value : α}
    (run : (if condition then report place fault >>= faulty else other) before = .ok value after)
    (runs : Runs (Moves SourceFault.OfBody) (faulty ⟨⟩)) (clean : after.errors = 0) :
    ¬condition ∧ other before = .ok value after := by
  split at run
  · obtain ⟨_, reported, reportRun, rest⟩ := bind_eq_ok.mp run
    cases reportRun
    have grown := (Leads.of_run rest runs).errors_le
    simp only [clean] at grown
    omega
  · exact ⟨‹_›, run⟩

theorem bind_ite_eq_ok {condition : Prop} [Decidable condition] {first second : Parse β}
    {next : β → Parse α} {value : α}
    (run : (if condition then first >>= next else second >>= next) before = .ok value after) :
    ∃ found state, (if condition then first else second) before = .ok found state ∧
      next found state = .ok value after := by
  by_cases holds : condition
  · rw [if_pos holds] at run ⊢
    exact bind_eq_ok.mp run
  · rw [if_neg holds] at run ⊢
    exact bind_eq_ok.mp run

/-- What is clean at the end was not left in the middle. -/
theorem attempted {production : Parse β} {next : Option β → Parse α} {value : α}
    (run : (attempt production >>= next) before = .ok value after)
    (leaves : ∀ fault left, production before = .error fault left → before.errors < left.errors)
    (runs : Runs (Moves SourceFault.OfBody) (next none)) (clean : after.errors = 0) :
    ∃ found read, production before = .ok found read ∧ next (some found) read = .ok value after := by
  obtain ⟨answer, answered, attemptRun, rest⟩ := bind_eq_ok.mp run
  rw [attempt] at attemptRun
  cases read : production before with
  | error fault left =>
      rw [read] at attemptRun
      cases attemptRun
      have grown := leaves _ _ read
      have later := (Leads.of_run rest runs).errors_le
      omega
  | ok found left =>
      rw [read] at attemptRun
      cases attemptRun
      exact ⟨found, _, rfl, rest⟩

theorem same_of_eat {kind : TokenKind} {taken : Bool} (notEnd : kind ≠ .eof)
    (run : eat kind before = .ok taken after) : SameButTokens before after := by
  rcases eat_ok notEnd run with ⟨-, _, takes, -⟩ | ⟨-, rfl, -⟩
  · exact takes.same
  · exact .refl _

theorem same_of_enumValue {value : Int} (run : enumValue members before = .ok value after) :
    SameButTokens before after := by
  obtain ⟨negative, minused, eatRun, rest⟩ := bind_eq_ok.mp run
  obtain ⟨⟨kind, text, place⟩, taken, nextRun, rest⟩ := bind_eq_ok.mp rest
  have same : SameButTokens before taken :=
    (same_of_eat (by decide) eatRun).trans ((next_ok nextRun).2 ▸ rfl)
  clear eatRun nextRun
  cases kind
  case number =>
    cases known : literalValue? text <;> simp only [known] at rest <;> cases rest
    exact same
  case identifier =>
    simp only at rest
    split at rest
    · cases rest
    · cases known : members.find? fun member => member.name == text <;>
        simp only [known] at rest <;> cases rest
      exact same
  all_goals cases rest

/-- A member that was read without a fault is another one. -/
theorem enumMember_ok {following : Int} {result : List EnumMember × Int × Bool}
    (run : enumMember base members following before = .ok result after) (clean : after.errors = 0)
    (named : ∀ token ∈ before.tokens, token.Named) (writable : WritableMembers base members) :
    SameButTokens before after ∧ WritableMembers base result.1 := by
  obtain ⟨name, behindName, nameRun, rest⟩ := bind_eq_ok.mp run
  obtain ⟨assigned, opened, eatRun, rest⟩ := bind_eq_ok.mp rest
  obtain ⟨value, valued, valueRun, rest⟩ := bind_ite_eq_ok rest
  have goesOn (extended : List EnumMember) : Runs (Moves SourceFault.OfBody) (do
      let more ← eat .comma
      Pure.pure (extended, if value + 1 ≤ greatestLiteral then value + 1 else following, more)) :=
    .bind (.eat _) fun _ => .pure _
  obtain ⟨inRange, rest⟩ := unreported rest (.reportOr (by rfl) goesOn) clean
  obtain ⟨fresh, rest⟩ := unreported rest (.bind (.pure _) goesOn) clean
  obtain ⟨_, _, extends_, rest⟩ := bind_eq_ok.mp rest
  cases extends_
  obtain ⟨more, ended, commaRun, rest⟩ := bind_eq_ok.mp rest
  cases rest
  obtain ⟨takes, isName⟩ := expect_ok (by decide) nameRun
  have same : SameButTokens opened valued := by
    split at valueRun
    · exact same_of_enumValue valueRun
    · cases valueRun
      exact .refl _
  refine ⟨takes.same.trans ((same_of_eat (by decide) eatRun).trans
    (same.trans (same_of_eat (by decide) commaRun))), ?_⟩
  have listed : name ∈ before.tokens := by rw [takes.tokens]; exact List.mem_cons_self
  refine ⟨List.forall_mem_append.mpr ⟨writable.names, ?_⟩,
    List.forall_mem_append.mpr ⟨writable.inRange, ?_⟩, nodup_map_append writable.distinct fresh⟩
  · exact List.forall_mem_singleton.mpr (named name listed isName)
  · exact List.forall_mem_singleton.mpr (Bool.eq_false_iff.mpr inRange)

theorem enumRound_ok {current : List EnumMember × Int}
    {result : (List EnumMember × Int) ⊕ List EnumMember}
    (run : enumRound base current before = .ok result after) (clean : after.errors = 0)
    (named : ∀ token ∈ before.tokens, token.Named) (writable : WritableMembers base current.1) :
    SameButTokens before after ∧ WritableMembers base (result.elim Prod.fst id) := by
  obtain ⟨token, _, peekRun, rest⟩ := bind_eq_ok.mp run
  cases peekRun
  split at rest
  · cases rest
    exact ⟨.refl before, writable⟩
  · obtain ⟨_, _, checkRun, bodyRun⟩ := bind_eq_ok.mp rest
    obtain ⟨⟨extended, _, more⟩, _, memberRun, ends⟩ := bind_eq_ok.mp bodyRun
    obtain ⟨rfl, -⟩ := checkBodyGoesOn_ok checkRun
    cases more <;> cases ends <;> exact enumMember_ok memberRun clean named writable

/-- Reading the members of an enum changes nothing but the tokens ahead. -/
theorem enumRounds_ok {all : List EnumMember} {current : List EnumMember × Int}
    (went : Went (enumRound base) all after before current) (clean : after.errors = 0)
    (orderly : before.Orderly) (writable : WritableMembers base current.1) :
    SameButTokens before after ∧ WritableMembers base all := by
  induction went with
  | done run => exact enumRound_ok run clean orderly.named writable
  | more run later ih =>
      have leads := (Leads.counted _).trans (.of_run run (Runs.enumRound base _))
      have clear := Nat.le_zero.mp (clean ▸ (Leads.of_went later (Runs.enumRound base)).errors_le)
      obtain ⟨same, writableToo⟩ := enumRound_ok run clear orderly.named writable
      obtain ⟨sameLater, writableAll⟩ := ih (leads.orderly orderly) writableToo
      exact ⟨same.trans sameLater, writableAll⟩

theorem enumMembers_ok (run : enumMembers base before = .ok members after)
    (clean : after.errors = 0) (orderly : before.Orderly) :
    SameButTokens before after ∧ WritableMembers base members := by
  have empty : WritableMembers base [] := ⟨nofun, nofun, List.nodup_nil⟩
  exact enumRounds_ok (.of_loop run) clean orderly empty

namespace Replays

variable {behind : List Word → Prop} {member : EnumMember}

theorem enumValue {value : Int} (bounded : value.natAbs ≤ greatestLiteral) :
    Replays before before (numberWords value) behind (Parse.enumValue members)
      fun found => found = value := by
  cases value with
  | ofNat number =>
      have literal : literalValue? (toString number) = some number :=
        literalValue?_toString bounded
      have positive : Replays before before [] (Apart [.minus]) (Parse.eat .minus)
          fun negative => negative = false := .eatMissing (by decide) fun _ apart => apart
      apply positive.silentBind fun _ _ => .cons (by simp)
      rintro _ rfl
      apply next.seqSilent
      rintro ⟨kind, text, place⟩ isWord
      obtain ⟨rfl, rfl⟩ := Prod.mk.inj isWord
      simp only [literal]
      exact pure rfl
  | negSucc number =>
      have literal : literalValue? (toString (number + 1)) = some (number + 1) :=
        literalValue?_toString bounded
      apply (eat rfl).seq
      rintro _ rfl
      apply next.seqSilent
      rintro ⟨kind, text, place⟩ isWord
      obtain ⟨rfl, rfl⟩ := Prod.mk.inj isWord
      simp only [literal]
      exact pure rfl

theorem enumMember {following : Int} (writable : WritableMembers base (members ++ [member]))
    (integral : base.isIntegral = true) {known : List EnumMember}
    (same : known.map EnumMember.unplaced = members.map EnumMember.unplaced) :
    Replays before before member.words behind (Parse.enumMember base known following)
      fun result => result.1.map EnumMember.unplaced = (members ++ [member]).map EnumMember.unplaced ∧
        result.2.2 = true := by
  have isLast : member ∈ members ++ [member] := by simp
  apply (expect rfl).seq
  rintro ⟨kind, name, place⟩ isName
  obtain ⟨rfl, rfl⟩ := Prod.mk.inj isName
  apply (eat rfl).seq
  rintro _ rfl
  simp only [if_true]
  apply (enumValue (writable.natAbs_le integral isLast)).seq
  rintro _ rfl
  have fresh : (known.any fun earlier => earlier.name == member.name) = false := by
    have distinct := writable.distinct
    rw [List.map_append, List.nodup_append, ← EnumMember.names_eq same] at distinct
    rw [List.any_eq_false]
    intro earlier listed same
    exact distinct.2.2 _ (List.mem_map_of_mem listed) member.name (by simp) (by simpa using same)
  rw [if_neg (by simp [writable.inRange member isLast]), if_neg (by simp [fresh])]
  apply (eat rfl).seqSilent
  rintro _ rfl
  exact pure ⟨by simp [same, EnumMember.unplaced], rfl⟩

theorem checkBodyGoesOn {token : Token} (notEnd : token.kind ≠ .eof)
    (goesOn : token.kind.startsDeclaration = false) :
    Replays before before [] behind (Parse.checkBodyGoesOn token) fun _ => True := by
  rw [Parse.checkBodyGoesOn, if_neg (by simp [notEnd, goesOn])]
  exact pure trivial

/-- Members are read one by one, up to the brace behind them. -/
theorem enumRounds {earlier : List EnumMember} {current : List EnumMember × Int}
    (writable : WritableMembers base (earlier ++ members)) (integral : base.isIntegral = true)
    (same : current.1.map EnumMember.unplaced = earlier.map EnumMember.unplaced) :
    Rounds before before (members.flatMap EnumMember.words) (BeginsWith .braceClose)
      (enumRound base) current
      fun all => all.map EnumMember.unplaced = (earlier ++ members).map EnumMember.unplaced := by
  induction members generalizing earlier current with
  | nil =>
      apply Rounds.done
      apply peekBehind fun _ starts => starts
      intro token isClose
      rw [if_pos isClose, List.append_nil]
      exact pure ⟨_, rfl, same⟩
  | cons member members ih =>
      have split : earlier ++ member :: members = (earlier ++ [member]) ++ members := by simp
      rw [split] at writable ⊢
      have one := writable.of_append
      rw [List.flatMap_cons]
      refine .more (by simp [EnumMember.words]) ?_ fun next sameNext => ih writable sameNext
      apply peekBind
      intro token isWord
      have isName : token.kind = .identifier := congrArg Prod.fst isWord
      rw [if_neg (by simp [isName])]
      have goesOn : token.kind.startsDeclaration = false := by rw [isName]; rfl
      apply (checkBodyGoesOn (by simp [isName]) goesOn).silentSeq
      intro _ _
      apply (enumMember one integral same).seqSilent
      rintro ⟨extended, following, more⟩ ⟨sameToo, rfl⟩
      exact pure ⟨_, rfl, sameToo⟩

theorem enumMembers (writable : WritableMembers base members) (integral : base.isIntegral = true) :
    Replays before before (members.flatMap EnumMember.words) (BeginsWith .braceClose)
      (Parse.enumMembers base)
      fun all => all.map EnumMember.unplaced = members.map EnumMember.unplaced :=
  loop (@enumRounds _ _ members [] ([], 0) writable integral rfl)

end Replays

end Parse

end DriverIdl
