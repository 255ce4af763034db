import DriverIdl.Proofs.Dump.Enums
import DriverIdl.Proofs.Grammar.Soundness

/-!
# Members of structs and unions that are read again

The members of a record are told by the words of their types and their names.  A body in which nothing
was wrong skipped nothing, so its members are read again one by one.
-/

namespace DriverIdl

/-- The words of members, each with its type and its name. -/
inductive MembersWords (arena : TypeArena) : List Member → List Word → Prop where
  | nil : MembersWords arena [] []
  | cons {member : Member} {members : List Member} {words others : List Word}
      (type : TypeWords arena member.type words) (isName : Text.IsName member.name)
      (later : MembersWords arena members others) :
      MembersWords arena (member :: members)
        (words ++ (.identifier, member.name) :: (.semicolon, ";") :: others)

theorem MembersWords.extend {arena after : TypeArena} {members : List Member} {words : List Word}
    (spelled : MembersWords arena members words) (grown : arena.Extends after) :
    MembersWords after members words := by
  induction spelled with
  | nil => exact .nil
  | cons type isName _ ih => exact .cons (type.extend grown) isName ih

namespace Parse

open ParseState

variable {before after : ParseState} {options : Options} {declaration : String}
  {behind : List Word → Prop}

/-- A member behind its type, which is no interface. -/
def restOfMember (type : TypeId) : Parse Member := do
  let name ← expect .identifier "a member name"
  let _ ← expect .semicolon "\";\""
  return ⟨name.text, type, name.place⟩

theorem recordMember_ok {member : Member}
    (run : recordMember options declaration before = .ok member after) :
    ∃ type typed, typeExpression options before = .ok type typed ∧
      typed.types.interface? type = none ∧ restOfMember type typed = .ok member after := by
  obtain ⟨start, _, peekRun, rest⟩ := bind_eq_ok.mp run
  cases peekRun
  obtain ⟨type, typed, typeRun, rest⟩ := bind_eq_ok.mp rest
  obtain ⟨arena, _, typesRun, rest⟩ := bind_eq_ok.mp rest
  cases typesRun
  refine ⟨type, typed, typeRun, ?_⟩
  unfold TypeArena.interface?
  revert rest
  cases typed.types.node type <;> intro rest
  case interface => cases rest
  all_goals exact ⟨rfl, rest⟩

theorem Replays.recordMember {typed : ParseState} {type : TypeId} {first : Word}
    {words others : List Word} {answers : Member → Prop}
    (types : Replays before typed (first :: words) (Apart typeStops) (typeExpression options)
      fun id => id = type) (absent : typed.types.interface? type = none)
    (follows : ∀ rest, behind rest → Apart typeStops (others ++ rest))
    (goesOn : Replays typed after others behind (restOfMember type) answers) :
    Replays before after (first :: (words ++ others)) behind (recordMember options declaration)
      answers := by
  apply Replays.peekBind
  intro token _
  refine types.bind ?_ follows
  rintro found rfl
  apply Replays.typesBind
  intro arena alike
  have absentToo : arena.interface? found = none := by
    rw [← TypeArena.interface?_unplaced, alike, TypeArena.interface?_unplaced, absent]
  cases node : arena.node found
  case interface => simp [TypeArena.interface?, node] at absentToo
  all_goals exact goesOn

theorem retells_recordMember {member : Member}
    (run : recordMember options declaration before = .ok member after) (orderly : before.Orderly)
    (tidy : after.Tidy) :
    Text.IsName member.name ∧ ∃ words, TypeWords after.types member.type words ∧
      Replays before after (words ++ [(.identifier, member.name), (.semicolon, ";")]) ⊤
        (recordMember options declaration) fun found => found.unplaced = member.unplaced := by
  obtain ⟨type, typed, typeRun, absent, rest⟩ := recordMember_ok run
  obtain ⟨name, named, nameRun, rest⟩ := bind_eq_ok.mp rest
  obtain ⟨_, closed, closeRun, rest⟩ := bind_eq_ok.mp rest
  cases rest
  have types := Leads.of_run typeRun Runs.typeExpression
  have behindType := (Leads.of_run nameRun (Runs.expects _ _)).trans
    (.of_run closeRun (Runs.expects _ _))
  have orderlyTyped := types.orderly orderly
  obtain ⟨words, spelled, replays⟩ := retells_typeExpression options typeRun orderly
    (behindType.tidy orderlyTyped.coherent tidy)
  obtain ⟨takesName, isName⟩ := expect_ok (by decide) nameRun
  have takesClose := (expect_ok (by decide) closeRun).1
  have same : SameButTokens typed after := takesName.same.trans takesClose.same
  have listed : name ∈ typed.tokens := by rw [takesName.tokens]; exact List.mem_cons_self
  refine ⟨orderlyTyped.named name listed isName, words,
    spelled.extend (behindType.types orderlyTyped.coherent), ?_⟩
  obtain ⟨first, others, rfl, -⟩ := spelled.head
  apply Replays.recordMember replays absent fun _ _ => .cons (by simp [typeStops])
  apply Replays.congr _ (.refl typed) same
  apply (Replays.expect rfl).seq
  rintro ⟨kind, text, place⟩ isWord
  obtain ⟨rfl, rfl⟩ := Prod.mk.inj isWord
  apply (Replays.expect rfl).seqSilent
  exact fun _ _ => .pure rfl

section Body

variable {α : Type} {item : Parse α} {faultOf? : List α → α → Option (Position × SourceFault)}
  {items : List α} {result : List α ⊕ List α}

/-- In a round without a fault, the body is closed or an item is read that has no fault. -/
theorem bodyRound_clean
    (leaves : ∀ state fault after, item state = .error fault after → state.errors < after.errors)
    (run : bodyRound item faultOf? items before = .ok result after) (clean : after.errors = 0) :
    (∃ token, result = .inr items ∧ Takes before token after) ∨
      ∃ found, item before = .ok found after ∧ faultOf? items found = none ∧
        result = .inl (items ++ [found]) := by
  obtain ⟨closed, opened, eatRun, rest⟩ := bind_eq_ok.mp run
  rcases eat_ok (by decide) eatRun with ⟨rfl, token, takes, -⟩ | ⟨rfl, rfl, -⟩
  · cases rest
    exact .inl ⟨token, rfl, takes⟩
  · obtain ⟨_, _, peekRun, bodyRun⟩ := bind_eq_ok.mp rest
    cases peekRun
    obtain ⟨_, _, checkRun, itemRun⟩ := bind_eq_ok.mp bodyRun
    obtain ⟨rfl, -⟩ := checkBodyGoesOn_ok checkRun
    obtain ⟨found, read, readRun, last⟩ := attempted itemRun (leaves _)
      (.bind .recoverStatement fun _ => .pure _) clean
    dsimp only at last
    cases faulty : faultOf? items found with
    | none =>
        rw [faulty] at last
        cases last
        exact .inr ⟨found, readRun, faulty, rfl⟩
    | some reason =>
        rw [faulty] at last
        obtain ⟨_, _, reportRun, ends⟩ := bind_eq_ok.mp last
        cases reportRun
        cases ends
        cases clean

end Body

/-- A member is refused if its name is taken. -/
def memberFault? (members : List Member) (member : Member) : Option (Position × SourceFault) :=
  if members.any fun known => known.name == member.name then
    some (member.place, .repeatedMember member.name)
  else none

theorem memberFault?_eq_none {members others : List Member} {member other : Member}
    (same : others.map Member.unplaced = members.map Member.unplaced)
    (sameToo : other.unplaced = member.unplaced) (fits : memberFault? members member = none) :
    memberFault? others other = none := by
  have names := Member.names_eq same
  have name : other.unplaced.name = member.unplaced.name := by rw [sameToo]
  change other.name = member.name at name
  have anyName (list : List Member) : (list.any fun known => known.name == member.name) =
      (list.map Member.name).any (· == member.name) := by rw [List.any_map]; rfl
  rw [memberFault?, anyName] at fits
  rw [memberFault?, name, anyName, names]
  split at fits
  · cases fits
  · rw [if_neg ‹_›]

theorem runs_recordRound (items : List Member) :
    Runs (Moves SourceFault.OfBody) (bodyRound (recordMember options declaration) memberFault? items) :=
  Runs.bodyRound (Runs.recordMember declaration) (fun _ _ _ _ => Runs.ofBody_of_refusedMember) items

theorem recordRound_clean {items : List Member} {result : List Member ⊕ List Member}
    (run : bodyRound (recordMember options declaration) memberFault? items before =
      .ok result after) (clean : after.errors = 0) :
    (∃ token, result = .inr items ∧ Takes before token after) ∨
      ∃ found, recordMember options declaration before = .ok found after ∧
        memberFault? items found = none ∧ result = .inl (items ++ [found]) :=
  bodyRound_clean (fun _ _ _ => (Spells.recordMember declaration).error) run clean

theorem retells_recordRounds {items all : List Member}
    (went : Went (bodyRound (recordMember options declaration) memberFault?) all after before items)
    (orderly : before.Orderly) (tidy : after.Tidy) :
    ∃ members words, all = items ++ members ∧ MembersWords after.types members words ∧
      ∀ known : List Member, known.map Member.unplaced = items.map Member.unplaced →
        Replays.Rounds before after (words ++ [(.braceClose, "\x7d")]) ⊤
          (bodyRound (recordMember options declaration) memberFault?) known
          fun found => found.map Member.unplaced = all.map Member.unplaced := by
  induction went with
  | @done before items run =>
      rcases recordRound_clean run tidy.clean with ⟨token, ends, takes⟩ | ⟨_, _, _, ends⟩ <;>
        cases ends
      refine ⟨[], [], (List.append_nil _).symm, .nil, fun known same => .done ?_⟩
      have closes : Replays before after [(.braceClose, "\x7d")] ⊤ (eat .braceClose)
          fun taken => taken = true := (Replays.eat rfl).congr (.refl _) takes.same
      apply closes.seqSilent
      rintro _ rfl
      exact .pure ⟨known, rfl, same⟩
  | @more before middle items next run later ih =>
      have rounds := Leads.of_went later runs_recordRound
      have clean := Nat.le_zero.mp (tidy.clean ▸ rounds.errors_le)
      rcases recordRound_clean run clean with ⟨token, ends, takes⟩ | ⟨member, memberRun, fits, ends⟩ <;>
        cases ends
      have reads := (Leads.counted before).trans (.of_run memberRun (Runs.recordMember declaration))
      have orderlyMiddle := reads.orderly orderly
      obtain ⟨isName, typeWords, spelled, replays⟩ := retells_recordMember memberRun
        ((Leads.counted before).orderly orderly) (rounds.tidy orderlyMiddle.coherent tidy)
      obtain ⟨members, words, rfl, spelledLater, replaysLater⟩ := ih orderlyMiddle
      have stays := spelled.extend (rounds.types orderlyMiddle.coherent)
      refine ⟨member :: members, _, by simp, .cons stays isName spelledLater, ?_⟩
      intro known same
      have again : Replays before middle
          (typeWords ++ [(.identifier, member.name), (.semicolon, ";")]) ⊤
          (bodyRound (recordMember options declaration) memberFault? known)
          fun result => ∃ next, result = .inl next ∧
            next.map Member.unplaced = (items ++ [member]).map Member.unplaced := by
        obtain ⟨first, others, rfl, starts⟩ := spelled.head
        obtain ⟨notEnd, notClose, goesOn⟩ : first.1 ≠ .eof ∧ first.1 ≠ .braceClose ∧
            first.1.startsDeclaration = false :=
          (by decide : ∀ kind ∈ typeStarts, kind ≠ .eof ∧ kind ≠ .braceClose ∧
            kind.startsDeclaration = false) _ starts
        have isOpen : Replays before before [] (Apart [.braceClose]) (eat .braceClose)
            fun taken => taken = false := .eatMissing (by decide) fun _ apart => apart
        apply isOpen.silentBind fun _ _ => .cons (by simpa using notClose)
        rintro _ rfl
        apply Replays.peekBind
        intro token isWord
        have isKind : token.kind = first.1 := congrArg Prod.fst isWord
        rw [← isKind] at notEnd goesOn
        apply (Replays.checkBodyGoesOn notEnd goesOn).silentSeq
        intro _ _
        apply (replays.congr (.counted before) (.refl _)).attempt.seqSilent
        rintro _ ⟨found, rfl, sameToo⟩
        simp only [memberFault?_eq_none same sameToo fits]
        exact .pure ⟨_, rfl, by simp [same, sameToo]⟩
      have whole := Replays.Rounds.more (by simp) again replaysLater
      simpa using whole

/-- The state behind a body, whose members are given to the type that it belongs to. -/
def withMembers (state : ParseState) (type : TypeId) (members : List Member) : ParseState :=
  { state with program :=
    { state.program with types := state.program.types.update type (setMembers members) } }

@[simp] theorem types_withMembers (state : ParseState) (type : TypeId) (members : List Member) :
    (withMembers state type members).types = state.types.update type (setMembers members) := rfl

theorem moves_withMembers (state : ParseState) (type : TypeId) (members : List Member) :
    Moves SourceFault.OfBody state (withMembers state type members) :=
  .single (.amend (setMembers_outline members))

/-- Members that differ in their places are given alike. -/
theorem Replays.fill {members others : List Member} (type : TypeId) {value : Unit}
    (same : others.map Member.unplaced = members.map Member.unplaced) :
    Replays before (withMembers before type members) [] behind
      (MonadState.modifyGet fun state => (value, withMembers state type others)) fun _ => True :=
  .modify (fun _ alike => alike.update type (unplaced_setMembers members)
    fun node => same ▸ unplaced_setMembers others node) fun _ => rfl

theorem retells_recordBody {name : Token} {type : TypeId}
    (run : recordBody options declaration name (some type) before = .ok () after)
    (orderly : before.Orderly) (tidy : after.Tidy) :
    ∃ read members words, after = withMembers read type members ∧ Leads before read ∧
      Keeps before read ∧ KeepsUnit before read ∧ MembersWords read.types members words ∧ ∀ copied : Token,
        Replays before after ((.braceOpen, "\x7b") ::
            (words ++ [(.braceClose, "\x7d")] ++ [(.semicolon, ";")])) ⊤
          (recordBody options declaration copied (some type)) fun _ => True := by
  obtain ⟨_, opened, openRun, rest⟩ := bind_eq_ok.mp run
  obtain ⟨members, closed, membersRun, rest⟩ := bind_eq_ok.mp rest
  obtain ⟨_, read, eatRun, rest⟩ := bind_eq_ok.mp rest
  obtain ⟨notEmpty, last⟩ := unreported rest (fun _ => moves_withMembers _ type members) tidy.clean
  cases last
  have opens := Leads.of_run openRun (Runs.expects _ _)
  have reads := Leads.of_run membersRun (Runs.recordMembers declaration)
  have eats := Leads.of_run eatRun (Runs.eat _)
  have fills := Leads.of_moves (moves_withMembers read type members)
  have orderlyOpened := opens.orderly orderly
  have orderlyClosed := reads.orderly orderlyOpened
  have same : SameButTokens closed read := same_of_eat (by decide) eatRun
  obtain ⟨all, words, isAll, spelled, replays⟩ := retells_recordRounds (.of_loop membersRun)
    orderlyOpened ((eats.trans fills).tidy orderlyClosed.coherent tidy)
  obtain rfl : members = all := isAll
  have keeps : Keeps before read := trans_of Keeps ((Runs.expects _ _).ok openRun)
    (trans_of Keeps ((Runs.recordMembers declaration).ok membersRun) ((Runs.eat _).ok eatRun))
  have keepsUnit : KeepsUnit before read := trans_of KeepsUnit ((Runs.expects _ _).ok openRun)
    (trans_of KeepsUnit ((Runs.recordMembers declaration).ok membersRun) ((Runs.eat _).ok eatRun))
  refine ⟨read, members, words, rfl, (opens.trans reads).trans eats, keeps, keepsUnit,
    spelled.extend (eats.types orderlyClosed.coherent), fun copied => ?_⟩
  have takesOpen : SameButTokens before opened := (expect_ok (by decide) openRun).1.same
  have again : Replays before read (words ++ [(.braceClose, "\x7d")]) ⊤
      (recordMembers options declaration)
      fun found => found.map Member.unplaced = members.map Member.unplaced :=
    (Replays.loop (replays [] rfl)).congr takesOpen same
  apply (Replays.expect rfl).seq
  intro _ _
  apply again.seq
  intro found sameFound
  apply (Replays.eat rfl).seqSilent
  rintro _ rfl
  have notEmptyToo : ¬found.isEmpty = true := by
    intro empty
    obtain rfl := List.isEmpty_iff.mp empty
    exact notEmpty (by simpa using sameFound.symm)
  rw [if_neg notEmptyToo]
  exact .fill type sameFound

end Parse

end DriverIdl
