import DriverIdl.Proofs.Dump.TypeWords

/-!
# Reading type expressions again

Whatever expression a type was read from, there are words that spell the type, and in front of these
words it is read again under the same number, if the types that are visible have different short
names.
-/

namespace DriverIdl

namespace Parse

open ParseState

variable {before after : ParseState} {type : TypeId} {behind : List Word → Prop} {options : Options}

theorem leads_of_intern {key : TypeKey} {node : TypeNode} (composite : key.isComposite = true)
    (denotes : key.Denotes node) (run : intern key node before = .ok type after) :
    Leads before after :=
  .of_run run (Runs.compose composite denotes)

theorem checkElement_ok {place : Position} {result : Unit}
    (run : checkElement type place before = .ok result after) :
    after = before ∧ before.types.interface? type = none := by
  cases found : before.types.interface? type with
  | none =>
      rw [checkElement_run found] at run
      cases run
      exact ⟨rfl, rfl⟩
  | some declared =>
      rw [checkElement_refused found] at run
      cases run

theorem checkSupport_ok {place : Position} {result : Unit}
    (run : checkSupport options type place before = .ok result after) :
    after = before ∧ supportFault? options before.types type = none := by
  simp only [checkSupport, Bind.bind, EStateM.bind, types_run] at run
  cases found : supportFault? options before.types type with
  | none =>
      rw [found] at run
      cases run
      exact ⟨rfl, rfl⟩
  | some fault =>
      rw [found] at run
      cases run

/-- What a composite type was interned as is what its number stands for. -/
theorem node_of_intern {key : TypeKey} {node : TypeNode} (composite : key.isComposite = true)
    (denotes : key.Denotes node) (coherent : before.Coherent)
    (run : intern key node before = .ok type after) : after.types.node type = node := by
  rcases intern_cases key node before with ⟨id, visible, runToo⟩ | ⟨-, runToo⟩
  · obtain ⟨rfl, rfl⟩ : id = type ∧ before = after := by simpa [runToo] using run
    obtain ⟨-, denotesToo⟩ :=
      coherent.table.sound _ (CompiledUnit.mem_table_of_visibleType? visible)
    exact (denotes.unique (TypeKey.isNamed_of_isComposite composite) denotesToo).symm
  · obtain ⟨rfl, rfl⟩ : before.types.size = type ∧ before.withType key node = after := by
      simpa [runToo] using run
    simp

namespace Replays

theorem checkElement {place : Position} (absent : before.types.interface? type = none) :
    Replays before before [] behind (Parse.checkElement type place) fun _ => True := by
  apply known
  intro second alike
  have same : second.types.interface? type = none := by
    rw [← TypeArena.interface?_unplaced, alike.types, TypeArena.interface?_unplaced, absent]
  exact ⟨(), checkElement_run same, trivial⟩

theorem checkSupport {place : Position} (supported : supportFault? options before.types type = none) :
    Replays before before [] behind (Parse.checkSupport options type place) fun _ => True := by
  apply known
  intro second alike
  have same : supportFault? options second.types type = none := by
    rw [← TypeArena.supportFault?_unplaced, alike.types, TypeArena.supportFault?_unplaced, supported]
  exact ⟨(), checkSupport_run same, trivial⟩

end Replays

/-- Whatever type a production answers, there are words that spell it, and in front of them another
one, in enough room, answers the same again. -/
def Retells (production : Parse TypeId) (again : Nat → Parse TypeId) : Prop :=
  ∀ before type after, production before = .ok type after → before.Orderly → after.Tidy →
    ∃ words, TypeWords after.types type words ∧ ∀ room, words.length < room →
      Replays before after words (Apart typeStops) (again room) fun id => id = type

/-- A type that was read behind its first token is told by words, and it is read again behind the
first of them, in enough room for the others. -/
def RetellsBase (outer : Nat → Parse TypeId) (before after : ParseState) (type : TypeId) : Prop :=
  ∃ first words, TypeWords after.types type (first :: words) ∧
    ∀ copied : Token, copied.word = first → ∀ room, words.length < room →
      Replays before after words (Apart [.dot]) (baseType (outer room) copied) fun id => id = type

section Containers

variable {inner : Parse TypeId} {outer : Nat → Parse TypeId} (retells : Retells inner outer)
  (runs : Runs (Moves SourceFault.OfBody) inner)

include retells

theorem retells_elementType :
    Retells (elementType inner) fun room => elementType (outer room) := by
  intro before type after run orderly tidy
  obtain ⟨token, _, peeked, rest⟩ := bind_eq_ok.mp run
  cases peeked
  obtain ⟨found, read, innerRun, rest⟩ := bind_eq_ok.mp rest
  obtain ⟨_, checked, checkRun, last⟩ := bind_eq_ok.mp rest
  obtain ⟨rfl, absent⟩ := checkElement_ok checkRun
  cases last
  obtain ⟨words, spelled, replays⟩ := retells _ _ _ innerRun orderly tidy
  refine ⟨words, spelled, fun room enough => ?_⟩
  obtain ⟨first, others, rfl, -⟩ := spelled.head
  apply Replays.peekBind
  intro token _
  apply (replays room enough).seqSilent
  rintro _ rfl
  apply (Replays.checkElement absent).seqSilent
  exact fun _ _ => .pure rfl

include runs

/-- An element and the word behind it are read again, in front of whatever is read again there. -/
theorem retells_enclosed {opened read closed : ParseState} {element : TypeId} {kind : TokenKind}
    {expected : String} {token : Token} (text : String)
    (elementRun : elementType inner opened = .ok element read)
    (closeRun : expect kind expected read = .ok token closed) (notEnd : kind ≠ .eof)
    (notStop : kind ∉ typeStops) (later : Leads closed after) (orderly : opened.Orderly)
    (tidy : after.Tidy) :
    closed.Orderly ∧ ∃ words, TypeWords after.types element words ∧ ∀ room, words.length < room →
      ∀ {others : List Word} {next : TypeId → Parse TypeId},
        Replays closed after others behind (next element) (fun id => id = type) →
        Replays opened after (words ++ (kind, text) :: others) behind
          (do
            let element ← elementType (outer room)
            let _ ← expect kind expected
            next element)
          fun id => id = type := by
  have reads := Leads.of_run elementRun (Runs.elementType runs)
  have closes := Leads.of_run closeRun (Runs.expects _ _)
  have orderlyRead := reads.orderly orderly
  have tidyRead := (closes.trans later).tidy orderlyRead.coherent tidy
  obtain ⟨words, spelled, replays⟩ := retells_elementType retells _ _ _ elementRun orderly tidyRead
  have grown := (closes.trans later).types orderlyRead.coherent
  refine ⟨closes.orderly orderlyRead, words, spelled.extend grown, fun room enough others next goesOn => ?_⟩
  have whole : SameButTokens read closed := (expect_ok notEnd closeRun).1.same
  apply ((replays room enough).congr rfl whole).seqStop fun _ => .cons notStop
  rintro _ rfl
  exact (Replays.expect rfl).seq fun _ _ => goesOn

theorem retells_listType (run : listType inner before = .ok type after) (orderly : before.Orderly)
    (tidy : after.Tidy) :
    RetellsBase outer before after type := by
  obtain ⟨_, opened, openRun, rest⟩ := bind_eq_ok.mp run
  obtain ⟨element, read, elementRun, rest⟩ := bind_eq_ok.mp rest
  obtain ⟨_, closed, closeRun, internRun⟩ := bind_eq_ok.mp rest
  have opens := Leads.of_run openRun (Runs.expects _ _)
  have opensOnly : SameButTokens before opened := (expect_ok (by decide) openRun).1.same
  obtain ⟨orderlyClosed, words, spelled, replays⟩ := retells_enclosed retells runs ">" elementRun
    closeRun (by decide) (by decide) (leads_of_intern (by rfl) (by rfl) internRun) (opens.orderly orderly) tidy
  have node := node_of_intern rfl (by rfl) orderlyClosed.coherent internRun
  refine ⟨_, _ :: _, .list node spelled, fun copied isCopy room enough => ?_⟩
  simp only [baseType, show copied.kind = .list from congrArg Prod.fst isCopy]
  apply (Replays.expect rfl).seq
  intro _ _
  exact (replays room (by simp at enough; omega) (.intern rfl internRun)).congr opensOnly rfl

theorem retells_mapType (run : mapType inner before = .ok type after) (orderly : before.Orderly)
    (tidy : after.Tidy) :
    RetellsBase outer before after type := by
  obtain ⟨_, opened, openRun, rest⟩ := bind_eq_ok.mp run
  obtain ⟨key, read, keyRun, rest⟩ := bind_eq_ok.mp rest
  obtain ⟨_, separated, separateRun, rest⟩ := bind_eq_ok.mp rest
  obtain ⟨value, readToo, valueRun, rest⟩ := bind_eq_ok.mp rest
  obtain ⟨_, closed, closeRun, internRun⟩ := bind_eq_ok.mp rest
  have opens := Leads.of_run openRun (Runs.expects _ _)
  have opensOnly : SameButTokens before opened := (expect_ok (by decide) openRun).1.same
  have interns : Leads closed after := leads_of_intern (by rfl) (by rfl) internRun
  have reads := Leads.of_run valueRun (Runs.elementType runs)
  have closes := Leads.of_run closeRun (Runs.expects _ _)
  obtain ⟨orderlyThere, words, spelled, replays⟩ := retells_enclosed retells runs "," keyRun
    separateRun (by decide) (by decide) (reads.trans (closes.trans interns)) (opens.orderly orderly)
    tidy
  obtain ⟨orderlyClosed, others, spelledToo, replaysToo⟩ :=
    retells_enclosed retells runs ">" valueRun closeRun (by decide) (by decide) interns
      orderlyThere tidy
  have node := node_of_intern rfl (by rfl) orderlyClosed.coherent internRun
  refine ⟨_, _ :: _, .map node spelled spelledToo, fun copied isCopy room enough => ?_⟩
  simp only [baseType, show copied.kind = .map from congrArg Prod.fst isCopy]
  simp only [List.length_cons, List.length_append] at enough
  apply (Replays.expect rfl).seq
  intro _ _
  exact (replays room (by omega)
    (replaysToo room (by omega) (.intern rfl internRun))).congr opensOnly rfl

theorem retells_queueType {place : Position} (run : queueType inner place before = .ok type after)
    (orderly : before.Orderly) (tidy : after.Tidy) :
    RetellsBase outer before after type := by
  obtain ⟨_, opened, openRun, rest⟩ := bind_eq_ok.mp run
  obtain ⟨element, read, elementRun, rest⟩ := bind_eq_ok.mp rest
  obtain ⟨_, closed, closeRun, rest⟩ := bind_eq_ok.mp rest
  obtain ⟨arena, _, looked, checkRun⟩ := bind_eq_ok.mp rest
  cases looked
  split at checkRun
  · cases checkRun
  · rename_i plain
    have opens := Leads.of_run openRun (Runs.expects _ _)
    have opensOnly : SameButTokens before opened := (expect_ok (by decide) openRun).1.same
    obtain ⟨orderlyClosed, words, spelled, replays⟩ := retells_enclosed retells runs ">" elementRun
      closeRun (by decide) (by decide) (leads_of_intern (by rfl) (by rfl) checkRun) (opens.orderly orderly) tidy
    have node := node_of_intern rfl (by rfl) orderlyClosed.coherent checkRun
    refine ⟨_, _ :: _, .queue node spelled, fun copied isCopy room enough => ?_⟩
    simp only [baseType, show copied.kind = .sharedMemQueue from congrArg Prod.fst isCopy]
    apply (Replays.expect rfl).seq
    intro _ _
    refine (replays room (by simp at enough; omega) ?_).congr opensOnly rfl
    apply Replays.typesBind
    intro arena same
    rw [← TypeArena.fixedSize?_unplaced, ← same, TypeArena.fixedSize?_unplaced] at plain
    rw [if_neg plain]
    exact .intern rfl checkRun

end Containers

theorem retells_namedType {first : Token} (isName : Text.IsName first.text)
    (run : namedType first before = .ok type after) (orderly : before.Orderly) (tidy : after.Tidy) :
    ∃ name, Text.IsName name ∧ (after.types.node type).name? = some name ∧
      ∀ copied : Token, copied.word = (.identifier, name) →
        Replays before after [] (Apart [.dot]) (namedType copied) fun id => id = type := by
  obtain ⟨name, read, same, found⟩ := namedType_ok run
  obtain ⟨words, spelled⟩ := Header.nameWords_of_dottedTail read (.single isName) orderly.named
  obtain ⟨namespaceId, short, isShort, visible⟩ := CompiledUnit.visible_of_lookup? spelled found
  obtain ⟨-, -, named⟩ :=
    orderly.coherent.table.sound _ (CompiledUnit.mem_table_of_visibleType? visible)
  refine ⟨short, isShort, by rw [same.types_eq, named], ?_⟩
  intro copied isCopy second rest alike tokens apart
  obtain rfl : copied.text = short := congrArg Prod.snd isCopy
  rw [List.nil_append] at tokens
  have readToo := Header.dottedTail_of_apart copied.text (tokens.symm ▸ apart)
  have foundToo : second.unit.lookup? second.program.namespaces copied.text = some type := by
    apply CompiledUnit.lookup?_of_visible isShort ((alike.visible _).trans visible)
    intro other id isVisible
    have listed := CompiledUnit.mem_table_of_visibleType? ((alike.visible _).symm.trans isVisible)
    have listedToo := CompiledUnit.mem_table_of_visibleType? visible
    rw [← same.unit_eq] at listed listedToo
    exact tidy.apart _ _ _ _ _ listed listedToo
  obtain ⟨rounds, runToo⟩ := namedType_run readToo foundToo
  exact ⟨type, _, runToo, rfl, tokens, alike.of_second.of_first same⟩

theorem node_primitive (orderly : before.Orderly) (kind : Primitive) :
    before.types.node kind.id = .primitive kind :=
  (orderly.coherent.table.sound _ (orderly.coherent.primitives kind)).2

theorem baseType_of_word {inner : Parse TypeId} {kind : Primitive} {token : Token} {word : Word}
    (spelled : kind.words = [word]) (isWord : token.word = word) :
    baseType inner token = Pure.pure kind.id := by
  have isKind : token.kind = word.1 := congrArg Prod.fst isWord
  cases kind <;> cases spelled <;> simp only [baseType, isKind]

theorem Replays.unsignedType {kind : Primitive} {word : Word}
    (spelled : kind.words = [(.unsigned, "unsigned"), word]) :
    Replays before before [word] behind Parse.unsignedType fun id => id = kind.id := by
  apply Replays.next.seqSilent
  intro token isWord
  have isKind : token.kind = word.1 := congrArg Prod.fst isWord
  cases kind <;> cases spelled <;> simp only [isKind] <;> exact .pure rfl

theorem next_ok {token : Token} (run : next before = .ok token after) :
    token = ahead before ∧ after = { before with tokens := before.tokens.tail } := by
  cases run
  exact ⟨rfl, rfl⟩

theorem named_of_next {token : Token} (orderly : before.Orderly)
    (run : next before = .ok token after) : token.Named := by
  obtain ⟨rfl, -⟩ := next_ok run
  intro isName
  cases found : before.tokens with
  | nil => simp [ahead, found] at isName
  | cons token rest =>
      have first : ahead before = token := ahead_cons found
      rw [first] at isName ⊢
      exact orderly.named token (by simp [found]) isName

theorem unsignedType_ok (run : unsignedType before = .ok type after) :
    SameButTokens before after ∧ ∃ (kind : Primitive) (word : Word),
      kind.words = [(.unsigned, "unsigned"), word] ∧ type = kind.id := by
  obtain ⟨⟨kind, text, place⟩, state, taken, rest⟩ := bind_eq_ok.mp run
  have same : SameButTokens before state := (next_ok taken).2 ▸ rfl
  clear taken
  cases kind <;> cases rest
  case char | byte => exact ⟨same, .uchar, _, rfl, rfl⟩
  case short => exact ⟨same, .ushort, _, rfl, rfl⟩
  case int => exact ⟨same, .uint, _, rfl, rfl⟩
  case long => exact ⟨same, .ulong, _, rfl, rfl⟩

section Types

variable {inner : Parse TypeId} {outer : Nat → Parse TypeId}

theorem retells_word {kind : Primitive} {word : Word} (spelled : kind.words = [word])
    (written : kind ≠ .void) (orderly : before.Orderly)
    (run : (Pure.pure kind.id : Parse TypeId) before = .ok type after) :
    RetellsBase outer before after type := by
  cases run
  refine ⟨word, [], spelled ▸ .primitive (node_primitive orderly kind) written, ?_⟩
  intro copied isCopy room _
  rw [baseType_of_word spelled isCopy]
  exact .pure rfl

theorem retells_unsignedType (run : unsignedType before = .ok type after) (orderly : before.Orderly) :
    RetellsBase outer before after type := by
  obtain ⟨same, kind, word, spelled, rfl⟩ := unsignedType_ok run
  have node : after.types.node kind.id = .primitive kind := by
    rw [same.types_eq, node_primitive orderly]
  have written : kind ≠ .void := by
    rintro rfl
    cases spelled
  refine ⟨(.unsigned, "unsigned"), [word], spelled ▸ .primitive node written, ?_⟩
  intro copied isCopy room _
  simp only [baseType, show copied.kind = .unsigned from congrArg Prod.fst isCopy]
  exact (Replays.unsignedType spelled).congr (.refl before) same

theorem retells_baseType (retells : Retells inner outer)
    (runs : Runs (Moves SourceFault.OfBody) inner) {token : Token} (named : token.Named)
    (run : baseType inner token before = .ok type after) (orderly : before.Orderly)
    (tidy : after.Tidy) : RetellsBase outer before after type := by
  obtain ⟨kind, text, place⟩ := token
  cases kind
  case boolean => exact @retells_word _ _ _ _ .boolean _ rfl (by decide) orderly run
  case byte | char => exact @retells_word _ _ _ _ .byte _ rfl (by decide) orderly run
  case short => exact @retells_word _ _ _ _ .short _ rfl (by decide) orderly run
  case int => exact @retells_word _ _ _ _ .int _ rfl (by decide) orderly run
  case long => exact @retells_word _ _ _ _ .long _ rfl (by decide) orderly run
  case float => exact @retells_word _ _ _ _ .float _ rfl (by decide) orderly run
  case double => exact @retells_word _ _ _ _ .double _ rfl (by decide) orderly run
  case string => exact @retells_word _ _ _ _ .string _ rfl (by decide) orderly run
  case fileDescriptor => exact @retells_word _ _ _ _ .fileDescriptor _ rfl (by decide) orderly run
  case unsigned => exact retells_unsignedType run orderly
  case list => exact retells_listType retells runs run orderly tidy
  case map => exact retells_mapType retells runs run orderly tidy
  case sharedMemQueue => exact retells_queueType retells runs run orderly tidy
  case identifier =>
    obtain ⟨name, isName, node, replays⟩ := retells_namedType (named rfl) run orderly tidy
    refine ⟨_, [], .named node isName, fun copied isCopy room _ => ?_⟩
    simp only [baseType, show copied.kind = .identifier from congrArg Prod.fst isCopy]
    exact replays copied isCopy
  all_goals cases run

/-- A type ends where no bracket follows. -/
theorem Replays.Rounds.noBrackets {place : Position} (same : SameButTokens before after) :
    Rounds before after [] (Apart typeStops) (arrayRound place) type fun id => id = type := by
  have missing : Replays before before [] (Apart typeStops) (Parse.eat .bracketOpen)
      fun taken => taken = false :=
    .eatMissing (by decide) fun _ apart => apart.mono (by simp [typeStops])
  apply Rounds.done
  apply (missing.congr (.refl before) same).seqSilent
  rintro _ rfl
  exact .pure ⟨type, rfl, rfl⟩

/-- The brackets behind a type are read again behind its words. -/
theorem retells_arrayRounds {place : Position} {base : TypeId}
    (went : Went (arrayRound place) type after before base) (orderly : before.Orderly)
    {words : List Word} (spelled : TypeWords before.types base words) :
    ∃ more, TypeWords after.types type (words ++ more) ∧
      (∀ rest, Apart typeStops rest → Apart [.dot] (more ++ rest)) ∧ ∀ placeToo : Position,
      Replays.Rounds before after more (Apart typeStops) (arrayRound placeToo) base fun id => id = type := by
  induction went generalizing words with
  | @done before base run =>
      obtain ⟨taken, state, eatRun, rest⟩ := bind_eq_ok.mp run
      rcases eat_ok (by decide) eatRun with ⟨rfl, -⟩ | ⟨rfl, rfl, -⟩
      · obtain ⟨_, _, -, rest⟩ := bind_eq_ok.mp rest
        obtain ⟨_, _, -, rest⟩ := bind_eq_ok.mp rest
        obtain ⟨_, _, -, rest⟩ := bind_eq_ok.mp rest
        cases rest
      · cases rest
        exact ⟨[], by rwa [List.append_nil], fun _ apart => apart.mono (by simp [typeStops]),
          fun _ => .noBrackets (.counted before)⟩
  | @more before middle base array run later ih =>
      obtain ⟨taken, opened, eatRun, rest⟩ := bind_eq_ok.mp run
      rcases eat_ok (by decide) eatRun with ⟨rfl, token, takes, -⟩ | ⟨rfl, rfl, -⟩
      · rw [if_pos rfl] at rest
        obtain ⟨_, closed, closeRun, rest⟩ := bind_eq_ok.mp rest
        obtain ⟨_, checked, checkRun, rest⟩ := bind_eq_ok.mp rest
        obtain ⟨id, _, internRun, rest⟩ := bind_eq_ok.mp rest
        cases rest
        obtain ⟨rfl, absent⟩ := checkElement_ok checkRun
        have leads : Leads before checked := ((Leads.counted before).trans
          (.of_run eatRun (Runs.eat _))).trans (.of_run closeRun (Runs.expects _ _))
        have closes : SameButTokens before checked :=
          takes.same.trans (expect_ok (by decide) closeRun).1.same
        have interns := leads_of_intern (by rfl) (by rfl) internRun
        have orderlyThere := leads.orderly orderly
        have node := node_of_intern rfl (by rfl) orderlyThere.coherent internRun
        have grown := (leads.trans interns).types orderly.coherent
        obtain ⟨more, spelledToo, -, rounds⟩ :=
          ih (interns.orderly orderlyThere) (.array node (spelled.extend grown))
        refine ⟨(.bracketOpen, "[") :: (.bracketClose, "]") :: more, by simpa using spelledToo,
          fun _ _ => .cons (by decide), ?_⟩
        intro placeToo
        have again : Replays before middle [(.bracketOpen, "["), (.bracketClose, "]")] ⊤
            (arrayRound placeToo base) fun result => ∃ next, result = .inl next ∧ next = array := by
          apply Replays.seq (.eat rfl)
          rintro _ rfl
          apply (Replays.expect rfl).seqSilent
          intro _ _
          apply ((Replays.checkElement absent).congr closes (.refl checked)).seqSilent
          intro _ _
          apply (Replays.intern rfl internRun).seqSilent
          rintro _ rfl
          exact .pure ⟨_, rfl, rfl⟩
        exact .more (by simp) again fun next isNext => isNext ▸ rounds placeToo
      · cases rest

theorem retells_typeWithin (options : Options) (depth : Nat) :
    Retells (typeWithin options depth) (typeWithin options) := by
  induction depth with
  | zero => exact fun _ _ _ run => by cases run
  | succ depth ih =>
      intro before type after run orderly tidy
      obtain ⟨token, opened, nextRun, rest⟩ := bind_eq_ok.mp run
      obtain ⟨base, middle, baseRun, rest⟩ := bind_eq_ok.mp rest
      obtain ⟨_, suffixed, arrayRun, rest⟩ := bind_eq_ok.mp rest
      obtain ⟨_, checked, checkRun, last⟩ := bind_eq_ok.mp rest
      obtain ⟨rfl, supported⟩ := checkSupport_ok checkRun
      cases last
      have opens := Leads.of_run nextRun Runs.next
      have orderlyOpened := opens.orderly orderly
      have reads := Leads.of_run baseRun (Runs.baseType (Runs.typeWithin depth) token)
      have orderlyMiddle := reads.orderly orderlyOpened
      have suffixes := Leads.of_run arrayRun (Runs.arraySuffix base token.place)
      have named : token.Named := named_of_next orderly nextRun
      obtain ⟨first, words, spelled, replays⟩ := retells_baseType ih (Runs.typeWithin depth)
        named baseRun orderlyOpened (suffixes.tidy orderlyMiddle.coherent tidy)
      obtain ⟨more, spelledToo, apart, rounds⟩ :=
        retells_arrayRounds (.of_loop arrayRun) orderlyMiddle spelled
      refine ⟨first :: (words ++ more), spelledToo, fun room enough => ?_⟩
      obtain ⟨room, rfl⟩ := Nat.exists_eq_succ_of_ne_zero (Nat.ne_of_gt (Nat.zero_lt_of_lt enough))
      rw [List.length_cons, List.length_append] at enough
      have starts : Replays before before [first] ⊤ next fun token => token.word = first := .next
      apply starts.seq
      intro copied isCopy
      have takes : SameButTokens before opened := (next_ok nextRun).2 ▸ rfl
      refine ((replays copied isCopy room (by omega)).congr takes (.refl _)).bind ?_ apart
      rintro _ rfl
      apply (Replays.loop (rounds copied.place)).seqSilent
      rintro _ rfl
      apply (Replays.checkSupport supported).seqSilent
      exact fun _ _ => .pure rfl

theorem retells_typeExpression (options : Options)
    (run : typeExpression options before = .ok type after) (orderly : before.Orderly)
    (tidy : after.Tidy) :
    ∃ words, TypeWords after.types type words ∧
      Replays before after words (Apart typeStops) (typeExpression options) fun id => id = type := by
  obtain ⟨words, spelled, replays⟩ := retells_typeWithin options _ _ _ _ run orderly tidy
  refine ⟨words, spelled, fun second rest alike tokens apart => ?_⟩
  have same := congrArg List.length tokens
  rw [List.length_map, List.length_append] at same
  exact replays (second.tokens.length + 1) (by omega) second rest alike tokens apart

end Types

end Parse

end DriverIdl
