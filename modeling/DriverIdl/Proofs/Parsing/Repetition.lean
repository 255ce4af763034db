import DriverIdl.Proofs.Parsing.Coherence

/-!
# Reading a type expression again

A type expression denotes the same type wherever its words stand again in a file, if none of its short
names has been given to another type in between: every type that it is composed of is in the table of
the unit by then.  `Repeats` compares two runs of a production, on the words of the expression and on
their copy, and says that the second answers what the first did and changes nothing but the tokens
ahead.
-/

namespace DriverIdl

/-- What a token says, wherever it stands. -/
def Token.word (token : Token) : TokenKind × String := (token.kind, token.text)

theorem Token.kind_eq_of_word {first second : Token} (same : first.word = second.word) :
    first.kind = second.kind := congrArg Prod.fst same

theorem Token.text_eq_of_word {first second : Token} (same : first.word = second.word) :
    first.text = second.text := congrArg Prod.snd same

/-- The identifiers among tokens that stand next to no dot. -/
def shortNames : List Token → List String
  | [] => []
  | [token] => if token.kind = .identifier then [token.text] else []
  | token :: next :: rest =>
    if token.kind = .dot then shortNames rest
    else if token.kind = .identifier ∧ next.kind ≠ .dot then token.text :: shortNames (next :: rest)
    else shortNames (next :: rest)

theorem mem_shortNames_cons {token : Token} {rest : List Token} {name : String}
    (notDot : token.kind ≠ .dot) (listed : name ∈ shortNames rest) :
    name ∈ shortNames (token :: rest) := by
  cases rest with
  | nil => cases listed
  | cons next rest =>
      rw [shortNames, if_neg notDot]
      split
      · exact List.mem_cons_of_mem _ listed
      · exact listed

theorem text_mem_shortNames {token : Token} {rest : List Token} (isName : token.kind = .identifier)
    (alone : ∀ next ∈ rest.head?, next.kind ≠ .dot) : token.text ∈ shortNames (token :: rest) := by
  cases rest with
  | nil => simp [shortNames, isName]
  | cons next rest => simp [shortNames, isName, alone next rfl]

/-- The name behind the last dot is split from the package in front of it. -/
theorem Package.splitFullName?_join {package name : String} (named : package.toList ≠ [])
    (isWord : Text.IsWord name) : splitFullName? (package ++ "." ++ name) = some (package, name) := by
  have backwards : (package ++ "." ++ name).toList.reverse =
      name.toList.reverse ++ '.' :: package.toList.reverse := by simp
  have undotted : ∀ character ∈ name.toList.reverse, (character != '.') = true := by
    intro character inside
    rw [bne_iff_ne]
    rintro rfl
    exact isWord.undotted (List.mem_reverse.mp inside)
  simp only [splitFullName?, backwards]
  rw [List.takeWhile_append_of_pos undotted, List.dropWhile_append_of_pos undotted]
  simp [named, isWord.1]

/-- A dotted name is one word, or a package and a word behind it. -/
theorem Header.dottedTail_cases {first name : String} {tokens rest : List Token}
    (read : dottedTail first tokens = (some name, rest)) (named : first.toList ≠ [])
    (spelled : ∀ token ∈ tokens, token.WellSpelled) :
    (name = first ∧ rest = tokens ∧ ∀ token ∈ tokens.head?, token.kind ≠ .dot) ∨
      ∃ package short, Package.splitFullName? name = some (package, short) := by
  fun_induction dottedTail first tokens with
  | case1 first dotText dotPlace segment place others ih =>
      have word := (spelled ⟨.identifier, segment, place⟩ (by simp)).word rfl
      rcases ih read (by simp) fun token listed => spelled token (by simp [listed])
        with ⟨rfl, -⟩ | split
      · exact .inr ⟨first, segment, Package.splitFullName?_join named word⟩
      · exact .inr split
  | case2 => simp at read
  | case3 first tokens notLonger notDot =>
      obtain ⟨rfl, rfl⟩ : first = name ∧ tokens = rest := by simpa using read
      refine .inl ⟨rfl, rfl, ?_⟩
      rintro ⟨kind, text, place⟩ ahead rfl
      obtain ⟨others, rfl⟩ : ∃ others, tokens = ⟨.dot, text, place⟩ :: others := by
        cases tokens with
        | nil => cases ahead
        | cons token others => exact ⟨others, by simpa using ahead⟩
      exact notDot text place others rfl

namespace ParseState

variable {before middle after last : ParseState}

theorem Recalls.of_same (same : Parse.SameButTokens before after)
    (suffix : after.tokens <:+ before.tokens) : Recalls before after := by
  rw [Parse.SameButTokens] at same
  rw [same]
  exact { Recalls.refl before with tokens := suffix }

/-- Types were read: nothing was forgotten, and no declared type became visible. -/
structure Composes (before after : ParseState) : Prop extends Recalls before after where
  coherent : after.Coherent
  names : ∀ entry ∈ after.unit.table, entry.1.isNamed = true → entry ∈ before.unit.table

namespace Composes

theorem refl (coherent : before.Coherent) : Composes before before :=
  ⟨.refl before, coherent, fun _ listed _ => listed⟩

theorem trans (first : Composes before middle) (second : Composes middle after) :
    Composes before after where
  toRecalls := first.toRecalls.trans second.toRecalls
  coherent := second.coherent
  names entry listed named := first.names entry (second.names entry listed named) named

theorem of_same (same : Parse.SameButTokens before after) (suffix : after.tokens <:+ before.tokens)
    (coherent : before.Coherent) : Composes before after := by
  have recalls := Recalls.of_same same suffix
  rw [Parse.SameButTokens] at same
  rw [same] at recalls ⊢
  exact ⟨recalls, recalls.coherent coherent coherent.table, fun _ listed _ => listed⟩

/-- A fault is reported. -/
theorem report {place : Position} {fault : SourceFault} (coherent : before.Coherent) :
    Composes before { before with
      errors := before.errors + 1
      diagnostics := before.diagnostics ++ [⟨before.unit.path, place, fault⟩] } where
  toRecalls := { Recalls.refl before with }
  coherent := { coherent with }
  names _ listed _ := listed

end Composes

/-- From where tables are coherent, types were read. -/
def Composing (before after : ParseState) : Prop := before.Coherent → Composes before after

instance : IsPreorder ParseState Composing where
  refl _ := .refl
  trans _ _ _ first second coherent :=
    (first coherent).trans (second (first coherent).coherent)

end ParseState

/-- A type of the arena that holds types of the arena. -/
structure TypeArena.Fit (arena : TypeArena) (type : TypeId) : Prop where
  inside : type < arena.size
  elements : ∀ element ∈ (arena.node type).elements, element < arena.size

namespace TypeArena.Fit

variable {arena after : TypeArena} {type : TypeId}

theorem extend (fit : arena.Fit type) (grown : arena.Extends after) : after.Fit type where
  inside := Nat.lt_of_lt_of_le fit.inside grown.size_le
  elements element listed := by
    rw [← TypeNode.elements_outline, grown.outline_eq type fit.inside, TypeNode.elements_outline]
      at listed
    exact Nat.lt_of_lt_of_le (fit.elements element listed) grown.size_le

/-- What was supported stays supported. -/
theorem supportFault?_eq_none (fit : arena.Fit type) {options : Options} (grown : arena.Extends after)
    (supported : supportFault? options arena type = none) :
    supportFault? options after type = none := by
  apply supportFault?_eq_none_of_outline (grown.outline_eq type fit.inside) ?_ supported
  intro element isElement
  apply TypeNode.isContainer_congr
  apply grown.outline_eq
  apply fit.elements
  rcases isElement with isArray | isList
  · simp [isArray, TypeNode.elements]
  · simp [isList, TypeNode.elements]

end TypeArena.Fit

/-- A type with one of these names became visible between two points only if it was visible before. -/
def ParseState.Undisturbed (before after : ParseState) (name : String) : Prop :=
  ∀ namespaceId type, (.named namespaceId name, type) ∈ after.unit.table →
    (.named namespaceId name, type) ∈ before.unit.table

namespace Parse

open ParseState

section Lookup

variable {before after : ParseState} {name : String} {type : TypeId}

/-- A package is found where it was found. -/
theorem find?_of_recalls (recalls : Recalls before after) (coherent : before.Coherent)
    {id : NamespaceId} (found : before.program.namespaces.find? name = some id) :
    after.program.namespaces.find? name = some id := by
  have trie := coherent.namespaces
  rw [(recalls.trie trie).find?_eq_some_iff]
  exact (trie.find?_eq_some_iff.mp found).of_keeps trie.toWellFormed recalls.namespaces

/-- A full name denotes the type that it denoted, and so does a short one if no type of that name
became visible. -/
theorem lookup?_of_recalls (recalls : Recalls before after) (coherent : before.Coherent)
    (undisturbed : Package.splitFullName? name = none → Undisturbed before after name)
    (found : before.unit.lookup? before.program.namespaces name = some type) :
    after.unit.lookup? after.program.namespaces name = some type := by
  rw [CompiledUnit.lookup?] at found ⊢
  cases split : Package.splitFullName? name with
  | some parts =>
      simp only [split, Option.bind_eq_some_iff] at found ⊢
      obtain ⟨id, isPackage, visible⟩ := found
      exact ⟨id, find?_of_recalls recalls coherent isPackage, recalls.visibleType? visible⟩
  | none =>
      simp only [split] at found ⊢
      rw [recalls.namespaceId]
      cases own : before.unit.visibleType? (.named before.unit.namespaceId name) with
      | some known =>
          simp only [own] at found
          simp only [recalls.visibleType? own, found]
      | none =>
          have stillNone : after.unit.visibleType? (.named before.unit.namespaceId name) = none := by
            by_contra visible
            obtain ⟨id, isVisible⟩ := Option.ne_none_iff_exists'.mp visible
            have listed := undisturbed split _ _ (CompiledUnit.mem_table_of_visibleType? isVisible)
            simpa using List.lookup_eq_none_iff.mp own _ listed
          obtain ⟨added, table⟩ := recalls.table
          simp only [own] at found
          simp only [stillNone, ← table, List.findSome?_append, found, Option.some_or]

end Lookup

section Runs

variable {state : ParseState} {token : Token} {rest : List Token} {kind : TokenKind}

theorem ahead_cons (tokens : state.tokens = token :: rest) : ahead state = token := by
  simp [ahead, tokens]

theorem ahead_ne (notEnd : kind ≠ .eof) (head : ∀ token ∈ state.tokens.head?, token.kind ≠ kind) :
    (ahead state).kind ≠ kind := by
  cases words : state.tokens with
  | nil => simpa [ahead, words] using notEnd.symm
  | cons token rest =>
      rw [ahead_cons words]
      exact head token (by simp [words])

theorem eat_taken (tokens : state.tokens = token :: rest) (isKind : token.kind = kind) :
    eat kind state = .ok true { state with tokens := rest } := by
  simp only [eat, Bind.bind, EStateM.bind, peek_run, ahead_cons tokens, if_pos isKind, next_run,
    tokens, List.tail_cons]
  rfl

theorem eat_missing (different : (ahead state).kind ≠ kind) : eat kind state = .ok false state := by
  simp only [eat, Bind.bind, EStateM.bind, peek_run, if_neg different]
  rfl

theorem expect_taken {expected : String} (tokens : state.tokens = token :: rest)
    (isKind : token.kind = kind) :
    expect kind expected state = .ok token { state with tokens := rest } := by
  simp only [expect, Bind.bind, EStateM.bind, peek_run, ahead_cons tokens, if_pos isKind, next_run,
    tokens, List.tail_cons]

theorem next_taken (tokens : state.tokens = token :: rest) :
    next state = .ok token { state with tokens := rest } := by
  rw [next_run, ahead_cons tokens, tokens, List.tail_cons]

theorem checkElement_run {type : TypeId} {place : Position}
    (absent : state.types.interface? type = none) : checkElement type place state = .ok () state := by
  simp only [checkElement, Bind.bind, EStateM.bind, types_run]
  unfold TypeArena.interface? at absent
  cases node : state.types.node type with
  | interface declared => simp [node] at absent
  | _ => rfl

theorem checkElement_refused {type : TypeId} {place : Position} {declared : InterfaceType}
    (found : state.types.interface? type = some declared) :
    checkElement type place state = fail place (.interfaceElement declared.name) state := by
  simp only [checkElement, Bind.bind, EStateM.bind, types_run]
  unfold TypeArena.interface? at found
  cases node : state.types.node type with
  | interface other =>
      obtain rfl : other = declared := by simpa [node] using found
      rfl
  | _ => simp [node] at found

theorem checkSupport_run {options : Options} {type : TypeId} {place : Position}
    (supported : supportFault? options state.types type = none) :
    checkSupport options type place state = .ok () state := by
  simp only [checkSupport, Bind.bind, EStateM.bind, types_run, supported]
  rfl

/-- A dotted name in front of a state is read as far as it goes. -/
theorem dottedTail_run {first name : String} (state : ParseState)
    (read : Header.dottedTail first state.tokens = (some name, rest)) :
    ∃ rounds, dottedTail first state =
      .ok name { state with tokens := rest, rounds := rounds } := by
  have rounds (count : Nat) (state : ParseState) (first : String)
      (enough : state.tokens.length < count)
      (read : Header.dottedTail first state.tokens = (some name, rest)) :
      ∃ rounds, loopWithin (round nameRound) count first state =
        .ok name { state with tokens := rest, rounds := rounds } := by
    induction count generalizing state first with
    | zero => exact absurd enough (Nat.not_lt_zero _)
    | succ count ih =>
        generalize tokens : state.tokens = words at enough
        rw [tokens] at read
        have counted : state.counted.tokens = words := tokens
        revert read
        fun_cases Header.dottedTail first words with
        | case1 dotText dotPlace segment place others =>
            intro read
            have goesOn : round nameRound first state = .ok (.inl (first ++ "." ++ segment))
                { state.counted with tokens := others } :=
              bind_eq_ok.mpr ⟨(), state.counted, rfl, bind_eq_ok.mpr ⟨true, _, eat_taken counted rfl,
                bind_eq_ok.mpr ⟨_, _, expect_taken rfl rfl, rfl⟩⟩⟩
            rw [loopWithin_more count goesOn]
            exact ih _ _ (by simp at enough ⊢; omega) read
        | case2 =>
            intro read
            cases read
        | case3 _ notLonger notDot =>
            intro read
            obtain ⟨rfl, rfl⟩ : first = name ∧ words = rest := by simpa using read
            have missing : (ahead state.counted).kind ≠ .dot := by
              cases words with
              | nil => simp [ahead, counted]
              | cons token others =>
                  rw [ahead_cons counted]
                  obtain ⟨kind, text, place⟩ := token
                  rintro rfl
                  exact notDot text place others rfl
            have ends : round nameRound first state = .ok (.inr first) state.counted :=
              bind_eq_ok.mpr ⟨(), state.counted, rfl, bind_eq_ok.mpr ⟨false, _, eat_missing missing, rfl⟩⟩
            exact ⟨state.rounds + 1, by rw [loopWithin_done count ends, ← tokens]; rfl⟩
  exact rounds _ state first (Nat.lt_succ_self _) read

theorem namedType_ok {first : Token} {type : TypeId} {before after : ParseState}
    (run : namedType first before = .ok type after) :
    ∃ name, Header.dottedTail first.text before.tokens = (some name, after.tokens) ∧
      SameButTokens before after ∧
      before.unit.lookup? before.program.namespaces name = some type := by
  obtain ⟨name, state, tailRun, rest⟩ := bind_eq_ok.mp run
  obtain ⟨read, same⟩ := dottedTail_ok tailRun
  obtain ⟨current, looked, isState, answers⟩ := bind_eq_ok.mp rest
  cases isState
  have sameLookup : state.unit.lookup? state.program.namespaces name =
      before.unit.lookup? before.program.namespaces name := by
    rw [SameButTokens] at same
    rw [same]
  rw [sameLookup] at answers
  cases found : before.unit.lookup? before.program.namespaces name with
  | none =>
      simp only [found] at answers
      cases answers
  | some known =>
      simp only [found] at answers
      cases answers
      exact ⟨name, read, same, found⟩

theorem namedType_run {first : Token} {name : String} {type : TypeId}
    (read : Header.dottedTail first.text state.tokens = (some name, rest))
    (found : state.unit.lookup? state.program.namespaces name = some type) :
    ∃ rounds, namedType first state = .ok type { state with tokens := rest, rounds := rounds } := by
  obtain ⟨rounds, run⟩ := dottedTail_run state read
  refine ⟨rounds, bind_eq_ok.mpr ⟨name, _, run, bind_eq_ok.mpr ⟨_, _, rfl, ?_⟩⟩⟩
  simp only [found]
  rfl

end Runs

section Composing

theorem composing_next : Runs Composing next :=
  fun _ => .of_same rfl (List.tail_suffix _)

theorem composing_fail {α : Type} (place : Position) (fault : SourceFault) :
    Runs Composing (fail place fault : Parse α) := fun _ => .report

theorem composing_expect (kind : TokenKind) (expected : String) :
    Runs Composing (expect kind expected) :=
  .bind .peek fun _ => .ite composing_next (composing_fail _ _)

theorem composing_dottedTail (first : String) : Runs Composing (dottedTail first) := by
  have counts : Runs Composing (modify ParseState.counted : Parse Unit) :=
    .changes fun _ => .of_same rfl (List.suffix_refl _)
  refine .bind .get fun _ => .loopWithin (fun name => .bind counts fun _ => ?_) _ _
  refine .bind (.bind .peek fun _ => .ite (.bind composing_next fun _ => .pure _) (.pure _))
    fun _ => .ite ?_ (.pure _)
  exact .bind (composing_expect _ _) fun _ => .pure _

theorem composing_namedType (first : Token) : Runs Composing (namedType first) := by
  refine .bind (composing_dottedTail _) fun name => .bind .get fun state => ?_
  split
  · exact .pure _
  · exact composing_fail _ _

end Composing

/-- What is ahead the second time: a copy of what is left of the expression, in front of `rest`.  The
first time the expression ended at `last`, and everything known there is known by now. -/
structure Again (last : ParseState) (rest : List Token) (before second : ParseState) : Prop where
  recalls : Recalls last second
  /-- What stands behind goes on with a bracket or a dot only if that was so the first time. -/
  stops : ∀ kind, kind = .bracketOpen ∨ kind = .dot → rest.head?.map Token.kind = some kind →
    last.tokens.head?.map Token.kind = some kind
  copied : ∃ front copy, before.tokens = front ++ last.tokens ∧ second.tokens = copy ++ rest ∧
    copy.map Token.word = front.map Token.word ∧
    (∀ token ∈ front, token.kind ≠ .sharedMemQueue) ∧
    ∀ name ∈ shortNames front, Undisturbed last second name

namespace Again

variable {last before after second later : ParseState} {rest : List Token}

/-- Nothing is left of the expression. -/
theorem tokens_eq (again : Again last rest last second) : second.tokens = rest := by
  obtain ⟨front, copy, tokens, copied, words, -⟩ := again.copied
  obtain rfl : front = [] := by simpa using tokens
  obtain rfl : copy = [] := by simpa using words
  exact copied

theorem le_length (again : Again last rest before second) :
    rest.length ≤ second.tokens.length := by
  obtain ⟨front, copy, tokens, copied, -⟩ := again.copied
  rw [copied, List.length_append]
  omega

theorem length_le (again : Again last rest before second) (goesOn : Again last rest after later)
    (fewer : after.tokens.length ≤ before.tokens.length) :
    later.tokens.length ≤ second.tokens.length := by
  obtain ⟨front, copy, tokens, copied, words, -⟩ := again.copied
  obtain ⟨left, others, tokensToo, copiedToo, wordsToo, -⟩ := goesOn.copied
  have sameLength := congrArg List.length words
  have sameLengthToo := congrArg List.length wordsToo
  simp only [tokens, tokensToo, copied, copiedToo, List.length_append, List.length_map] at *
  omega

theorem length_lt (again : Again last rest before second) (goesOn : Again last rest after later)
    (fewer : after.tokens.length < before.tokens.length) :
    later.tokens.length < second.tokens.length := by
  obtain ⟨front, copy, tokens, copied, words, -⟩ := again.copied
  obtain ⟨left, others, tokensToo, copiedToo, wordsToo, -⟩ := goesOn.copied
  have sameLength := congrArg List.length words
  have sameLengthToo := congrArg List.length wordsToo
  simp only [tokens, tokensToo, copied, copiedToo, List.length_append, List.length_map] at *
  omega

theorem counted (again : Again last rest before second) :
    Again last rest before.counted second.counted :=
  ⟨{ again.recalls with }, again.stops, again.copied⟩

/-- A word of the expression has its copy the second time. -/
theorem take (again : Again last rest before second) {token : Token} (takes : Takes before token after)
    (within : last.tokens <:+ after.tokens) (notDot : token.kind ≠ .dot) :
    ∃ copied tail, second.tokens = copied :: tail ∧ copied.word = token.word ∧
      token.kind ≠ .sharedMemQueue ∧
      (token.kind = .identifier → (ahead after).kind ≠ .dot → Undisturbed last second token.text) ∧
      Again last rest after { second with tokens := tail } := by
  obtain ⟨front, copy, tokens, copied, words, noQueue, names⟩ := again.copied
  cases front with
  | nil =>
      have shorter := within.length_le
      have longer := takes.length_lt
      rw [tokens, List.nil_append] at longer
      omega
  | cons first others =>
      obtain ⟨rfl, left⟩ : first = token ∧ others ++ last.tokens = after.tokens := by
        simpa [tokens] using takes.tokens
      obtain ⟨copyFirst, copyOthers, rfl, sameWord, sameWords⟩ := List.map_eq_cons_iff.mp words
      refine ⟨copyFirst, copyOthers ++ rest, by simpa using copied, sameWord, noQueue _ (by simp), ?_, ?_⟩
      · intro isName notLonger
        apply names
        apply text_mem_shortNames isName
        intro next isNext
        obtain ⟨behind, rfl⟩ : ∃ behind, others = next :: behind := by
          cases others with
          | nil => cases isNext
          | cons head behind => exact ⟨behind, by simpa using isNext⟩
        rwa [ahead_cons left.symm] at notLonger
      · refine ⟨?_, again.stops, others, copyOthers, left.symm, rfl, sameWords,
          fun token listed => noQueue token (List.mem_cons_of_mem _ listed),
          fun name listed => names name (mem_shortNames_cons notDot listed)⟩
        have suffix : copyOthers ++ rest <:+ second.tokens := by
          rw [copied]
          exact List.suffix_cons copyFirst _
        exact again.recalls.trans (.of_same rfl suffix)

/-- What does not go on the first time does not go on the second time. -/
theorem ahead_ne (again : Again last rest before second) {kind : TokenKind}
    (stops : kind = .bracketOpen ∨ kind = .dot) (different : (ahead before).kind ≠ kind) :
    (ahead second).kind ≠ kind := by
  have notEnd : kind ≠ .eof := by rintro rfl; simp at stops
  obtain ⟨front, copy, tokens, copied, words, -⟩ := again.copied
  cases front with
  | nil =>
      obtain rfl : copy = [] := by simpa using words
      intro same
      have goesOn := again.stops kind stops
      cases behind : rest with
      | nil => simp [ahead, copied, behind, notEnd.symm] at same
      | cons token others =>
          have isAhead : ahead second = token := ahead_cons (by rw [copied, behind]; rfl)
          rw [isAhead] at same
          have head := goesOn (by simp [behind, same])
          cases first : last.tokens with
          | nil => simp [first] at head
          | cons next others =>
              rw [ahead_cons (by rw [tokens, first]; rfl)] at different
              exact different (by simpa [first] using head)
  | cons first others =>
      obtain ⟨copyFirst, copyOthers, rfl, sameWord, -⟩ := List.map_eq_cons_iff.mp words
      rw [ahead_cons tokens] at different
      rw [ahead_cons copied, Token.kind_eq_of_word sameWord]
      exact different

/-- A dotted name is read again as it was read. -/
theorem dottedTail (again : Again last rest before second) {first name : String} {left : List Token}
    (read : Header.dottedTail first before.tokens = (some name, left))
    (within : last.tokens <:+ left) :
    ∃ tail, Header.dottedTail first second.tokens = (some name, tail) ∧
      Again last rest { before with tokens := left } { second with tokens := tail } := by
  generalize tokens : before.tokens = words at read
  fun_induction Header.dottedTail first words generalizing before second with
  | case1 first dotText dotPlace segment place others ih =>
      obtain ⟨front, copy, split, copied, words, noQueue, names⟩ := again.copied
      obtain ⟨taken, behind, -⟩ := Header.dottedTail_eq_some read
      have shorter : last.tokens.length ≤ others.length := by
        have inLeft := within.length_le
        rw [behind, List.length_append]
        omega
      rw [tokens] at split
      rcases front with _ | ⟨dot, _ | ⟨name, front⟩⟩
      · have longer := congrArg List.length split
        simp at longer
        omega
      · have longer := congrArg List.length split
        simp at longer
        omega
      · -- The dot and the name are part of the expression, and so are their copies.
        obtain ⟨rfl, rfl, rfl⟩ : _ ∧ _ ∧ others = front ++ last.tokens := by simpa using split
        obtain ⟨copyDot, copyOthers, rfl, sameDot, sameOthers⟩ := List.map_eq_cons_iff.mp words
        obtain ⟨copyName, copyFront, rfl, sameName, sameFront⟩ := List.map_eq_cons_iff.mp sameOthers
        obtain ⟨copyDotKind, copyDotText, copyDotPlace⟩ := copyDot
        obtain ⟨copyNameKind, copySegment, copyPlace⟩ := copyName
        obtain rfl : copyDotKind = .dot := Token.kind_eq_of_word sameDot
        obtain rfl : copyNameKind = .identifier := Token.kind_eq_of_word sameName
        obtain rfl : copySegment = segment := Token.text_eq_of_word sameName
        have suffix : copyFront ++ rest <:+ second.tokens := by
          rw [copied]
          exact (List.suffix_cons _ _).trans (List.suffix_cons _ _)
        have behind : Again last rest { before with tokens := front ++ last.tokens }
            { second with tokens := copyFront ++ rest } :=
          ⟨again.recalls.trans (.of_same rfl suffix), again.stops, front, copyFront, rfl, rfl,
            sameFront, fun token listed => noQueue token (by simp [listed]),
            fun name listed => names name (by simpa [shortNames] using listed)⟩
        rw [copied]
        exact ih behind rfl read
  | case2 => cases read
  | case3 first words notLonger notDot =>
      obtain ⟨rfl, rfl⟩ : first = name ∧ words = left := by simpa using read
      subst tokens
      have missing : (ahead before).kind ≠ .dot := by
        cases words : before.tokens with
        | nil => simp [ahead, words]
        | cons token others =>
            rw [ahead_cons words]
            obtain ⟨kind, text, place⟩ := token
            rintro rfl
            exact notDot text place others words
      have missingToo := again.ahead_ne (.inr rfl) missing
      refine ⟨second.tokens, ?_, again⟩
      cases words : second.tokens with
      | nil => rfl
      | cons token others =>
          rw [ahead_cons words] at missingToo
          rw [Header.dottedTail]
          · rintro text place segment otherPlace rest ⟨rfl, -⟩
            exact missingToo rfl
          · rintro text place rest ⟨rfl, -⟩
            exact missingToo rfl

end Again

/-- What two runs answer need not be alike. -/
def Whatever {α : Type} (_value _copied : α) : Prop := True

instance {α : Type} : Std.Refl (Whatever (α := α)) := ⟨fun _ => trivial⟩

/-- A production reads types, and where another one stands before a copy of what it read, that one
answers alike and takes the copy.  The second run may go `room` words deep. -/
structure Repeats {α : Type} (last : ParseState) (rest : List Token) (room : Nat) (known : Prop)
    (before second : ParseState) (first other : Parse α) (alike : α → α → Prop)
    (post : α → ParseState → ParseState → Prop) : Prop where
  composes : Composing before (stateAfter first before)
  repeats : known → before.Coherent → ∀ value after, first before = .ok value after →
    Composes after last → Again last rest before second →
    second.tokens.length < rest.length + room →
    ∃ copied later, other second = .ok copied later ∧ SameButTokens second later ∧
      Again last rest after later ∧ alike value copied ∧ post value after later

namespace Repeats

variable {α β σ : Type} {last before second : ParseState} {rest : List Token} {room : Nat}
  {known : Prop} {alike : α → α → Prop} {post : α → ParseState → ParseState → Prop}

/-- A production that changes no more than tokens reads no types. -/
theorem ok {first other : Parse α} {value : α} {after : ParseState}
    (run : first before = .ok value after)
    (same : SameButTokens before after) (suffix : after.tokens <:+ before.tokens)
    (repeats : known → before.Coherent → Composes after last → Again last rest before second →
      second.tokens.length < rest.length + room →
      ∃ copied later, other second = .ok copied later ∧ SameButTokens second later ∧
        Again last rest after later ∧ alike value copied ∧ post value after later) :
    Repeats last rest room known before second first other alike post where
  composes coherent := by
    rw [stateAfter_ok run]
    exact .of_same same suffix coherent
  repeats assumed coherent found state runToo := by
    obtain ⟨rfl, rfl⟩ : value = found ∧ after = state := by simpa [run] using runToo
    exact repeats assumed coherent

theorem pure {value : α} (holds : known → before.Coherent → post value before second) :
    Repeats last rest room known before second (Pure.pure value) (Pure.pure value) Eq post :=
  .ok rfl rfl (List.suffix_refl _) fun assumed coherent _ again _ =>
    ⟨value, second, rfl, rfl, again, rfl, holds assumed coherent⟩

/-- A production that leaves with a fault is not repeated. -/
theorem refused {place : Position} {fault : SourceFault} {first other : Parse α}
    (refuses : first before = Parse.fail place fault before) :
    Repeats last rest room known before second first other alike post where
  composes coherent := by
    rw [stateAfter, refuses]
    exact .report coherent
  repeats _ _ value after run := by
    rw [refuses] at run
    cases run

theorem bind [Std.Refl alike] {first other : Parse α} {next nextOther : α → Parse β}
    {alikeNext : β → β → Prop}
    {postNext : β → ParseState → ParseState → Prop}
    (starts : Repeats last rest room known before second first other alike post)
    (goesOn : ∀ value copied, alike value copied → ∀ state later,
      Repeats last rest room (known ∧ Composes before state ∧ post value state later) state later
        (next value) (nextOther copied) alikeNext postNext) :
    Repeats last rest room known before second (first >>= next) (other >>= nextOther) alikeNext
      postNext where
  composes coherent := by
    have start := starts.composes coherent
    cases run : first before with
    | error fault state =>
        rw [stateAfter_bind_error run]
        rwa [stateAfter_error run] at start
    | ok value state =>
        rw [stateAfter_bind run]
        rw [stateAfter_ok run] at start
        have behind := goesOn value value (refl_of alike value) state second
        exact start.trans (behind.composes start.coherent)
  repeats assumed coherent value after run composes again shallow := by
    obtain ⟨between, state, firstRun, nextRun⟩ := bind_eq_ok.mp run
    have start := starts.composes coherent
    rw [stateAfter_ok firstRun] at start
    have behind := (goesOn between between (refl_of alike between) state second).composes
      start.coherent
    rw [stateAfter_ok nextRun] at behind
    obtain ⟨copied, later, otherRun, same, againLater, alike, holds⟩ :=
      starts.repeats assumed coherent between state firstRun (behind.trans composes) again shallow
    have shorter := again.length_le againLater start.tokens.length_le
    obtain ⟨result, final, resultRun, sameToo, rest⟩ :=
      (goesOn between copied alike state later).repeats ⟨assumed, start, holds⟩ start.coherent value
        after nextRun composes againLater (Nat.lt_of_le_of_lt shorter shallow)
    exact ⟨result, final, bind_eq_ok.mpr ⟨copied, later, otherRun, resultRun⟩, same.trans sameToo,
      rest⟩

/-- A stronger assumption. -/
theorem under {first other : Parse α} {assumed : Prop}
    (repeats : Repeats last rest room assumed before second first other alike post)
    (assume : known → assumed) :
    Repeats last rest room known before second first other alike post where
  composes := repeats.composes
  repeats holds := repeats.repeats (assume holds)

/-- No copy goes less deep than no word. -/
theorem noRoom {first other any : Parse α}
    (repeats : Repeats last rest room known before second first other alike post) :
    Repeats last rest 0 known before second first any alike post where
  composes := repeats.composes
  repeats _ _ _ _ _ _ again shallow := absurd again.le_length (Nat.not_le.mpr shallow)

/-- Takes a token that the rest cannot do without. -/
theorem bindNext {next other : Token → Parse α}
    (refuses : ∀ token, token.kind = .eof ∨ token.kind = .dot → ∀ state value after,
      next token state ≠ .ok value after)
    (goesOn : ∀ token copied, copied.word = token.word → ∀ state later,
      Repeats last rest (room - 1)
        (known ∧ token.kind ≠ .sharedMemQueue ∧
          (token.kind = .identifier → Text.IsWord token.text ∧
            ((ahead state).kind ≠ .dot → Undisturbed last later token.text)))
        state later (next token) (other copied) alike post) :
    Repeats last rest room known before second (Parse.next >>= next) (Parse.next >>= other) alike
      post where
  composes coherent := by
    have taken : Composes before { before with tokens := before.tokens.tail } :=
      .of_same rfl (List.tail_suffix _) coherent
    rw [stateAfter_bind (next_run before)]
    have behind := goesOn (ahead before) (ahead before) rfl
      { before with tokens := before.tokens.tail } second
    exact taken.trans (behind.composes taken.coherent)
  repeats assumed coherent value after run composes again shallow := by
    obtain ⟨token, state, taken, nextRun⟩ := bind_eq_ok.mp run
    obtain ⟨rfl, rfl⟩ : ahead before = token ∧
        { before with tokens := before.tokens.tail } = state := by simpa [next_run] using taken
    have notEnd : (ahead before).kind ≠ .eof := fun ends => refuses _ (.inl ends) _ _ _ nextRun
    have notDot : (ahead before).kind ≠ .dot := fun isDot => refuses _ (.inr isDot) _ _ _ nextRun
    have takes := takes_ahead notEnd
    have between : Composes before { before with tokens := before.tokens.tail } :=
      .of_same rfl (List.tail_suffix _) coherent
    have behind {copied : Token} (sameWord : copied.word = (ahead before).word) (later : ParseState) :=
      goesOn (ahead before) copied sameWord
        { before with tokens := before.tokens.tail } later
    have left := stateAfter_ok nextRun ▸ (behind rfl second).composes between.coherent
    obtain ⟨copied, tail, tokens, sameWord, noQueue, names, againLater⟩ :=
      again.take takes (left.trans composes).tokens notDot
    rw [tokens, List.length_cons] at shallow
    have listed : ahead before ∈ before.tokens := by
      rw [takes.tokens]
      exact List.mem_cons_self
    obtain ⟨result, final, resultRun, same, rest⟩ :=
      (behind sameWord { second with tokens := tail }).repeats
        ⟨assumed, noQueue, fun isName => ⟨(coherent.spelled _ listed).word isName, names isName⟩⟩
        between.coherent value after nextRun composes againLater
        (show tail.length < _ by omega)
    have takenToo : SameButTokens second { second with tokens := tail } := rfl
    exact ⟨result, final, bind_eq_ok.mpr ⟨copied, _, next_taken tokens, resultRun⟩,
      takenToo.trans same, rest⟩

theorem expect {kind : TokenKind} {expected : String} (notEnd : kind ≠ .eof) (notDot : kind ≠ .dot) :
    Repeats last rest room known before second (Parse.expect kind expected)
      (Parse.expect kind expected) Whatever fun _ after _ => SameButTokens before after := by
  by_cases isKind : (ahead before).kind = kind
  · have takes := takes_ahead (isKind ▸ notEnd)
    refine .ok (expect_taken takes.tokens isKind) takes.same (List.tail_suffix _)
      fun _ _ composes again _ => ?_
    obtain ⟨copied, tail, tokens, sameWord, -, -, goesOn⟩ :=
      again.take takes composes.tokens (isKind ▸ notDot)
    have sameKind := (Token.kind_eq_of_word sameWord).trans isKind
    exact ⟨copied, _, expect_taken tokens sameKind, rfl, goesOn, trivial, takes.same⟩
  · have refuses : Parse.expect kind expected before =
        Parse.fail (ahead before).place (unexpectedFault (ahead before) expected) before := by
      simp only [Parse.expect, Bind.bind, EStateM.bind, peek_run, if_neg isKind, unexpected]
    exact refused refuses

theorem eatBracket : Repeats last rest room known before second (Parse.eat .bracketOpen)
    (Parse.eat .bracketOpen) Eq fun taken after _ => SameButTokens before after ∧
      (taken = true → after.tokens.length < before.tokens.length) := by
  by_cases isOpen : (ahead before).kind = .bracketOpen
  · have takes : Takes before _ _ := takes_ahead (by simp [isOpen])
    refine .ok (eat_taken takes.tokens isOpen) takes.same (List.tail_suffix _)
      fun _ _ composes again _ => ?_
    obtain ⟨copied, tail, tokens, sameWord, -, -, goesOn⟩ :=
      again.take takes composes.tokens (by simp [isOpen])
    have sameKind := (Token.kind_eq_of_word sameWord).trans isOpen
    exact ⟨true, _, eat_taken tokens sameKind, rfl, goesOn, rfl, takes.same, fun _ => takes.length_lt⟩
  · refine .ok (eat_missing isOpen) rfl (List.suffix_refl _) fun _ _ _ again _ => ?_
    exact ⟨false, second, eat_missing (again.ahead_ne (.inl rfl) isOpen), rfl, again, rfl, rfl, nofun⟩

theorem peek : Repeats last rest room known before second Parse.peek Parse.peek
    Whatever fun _ after _ => after = before :=
  .ok (peek_run before) rfl (List.suffix_refl _) fun _ _ _ again _ =>
    ⟨_, second, peek_run second, rfl, again, trivial, rfl⟩

/-- What is no interface stays none. -/
theorem checkElement {type : TypeId} {place otherPlace : Position}
    (inside : known → type < before.types.size) :
    Repeats last rest room known before second (Parse.checkElement type place)
      (Parse.checkElement type otherPlace) Eq fun _ after _ => after = before := by
  cases found : before.types.interface? type with
  | none =>
      refine .ok (checkElement_run found) rfl (List.suffix_refl _) fun assumed _ composes again _ => ?_
      have absent := (composes.types.trans again.recalls.types).interface?_eq_none (inside assumed) found
      exact ⟨(), second, checkElement_run absent, rfl, again, rfl, rfl⟩
  | some declared => exact refused (checkElement_refused found)

/-- What was supported stays supported. -/
theorem checkSupport {options : Options} {type : TypeId} {place otherPlace : Position}
    (fit : known → before.types.Fit type) :
    Repeats last rest room known before second (Parse.checkSupport options type place)
      (Parse.checkSupport options type otherPlace) Eq fun _ after _ => after = before := by
  cases found : supportFault? options before.types type with
  | none =>
      refine .ok (checkSupport_run found) rfl (List.suffix_refl _) fun assumed _ composes again _ => ?_
      have grown := composes.types.trans again.recalls.types
      have supported := (fit assumed).supportFault?_eq_none grown found
      exact ⟨(), second, checkSupport_run supported, rfl, again, rfl, rfl⟩
  | some fault =>
      have refuses : Parse.checkSupport options type place before =
          Parse.fail place (.support fault) before := by
        simp only [Parse.checkSupport, Bind.bind, EStateM.bind, types_run, found]
      exact refused refuses

/-- The type answered fits. -/
def FitType (type : TypeId) (after _later : ParseState) : Prop := after.types.Fit type

/-- What was interned the first time is visible the second time. -/
theorem intern {key : TypeKey} {node : TypeNode} (composite : key.isComposite = true)
    (denotes : key.Denotes node)
    (fit : known → ∀ element ∈ node.elements, element < before.types.size) :
    Repeats last rest room known before second (Parse.intern key node) (Parse.intern key node)
      Eq FitType := by
  have moved : Move (fun _ => True) before (stateAfter (Parse.intern key node) before) :=
    .intern denotes
  rcases intern_cases key node before with ⟨id, visible, run⟩ | ⟨free, run⟩
  · refine .ok run rfl (List.suffix_refl _) fun assumed coherent composes again _ => ?_
    have visibleToo := again.recalls.visibleType? (composes.visibleType? visible)
    obtain ⟨inside, denotesToo⟩ :=
      coherent.table.sound _ (CompiledUnit.mem_table_of_visibleType? visible)
    have sameNode := denotes.unique (TypeKey.isNamed_of_isComposite composite) denotesToo
    rcases intern_cases key node second with ⟨other, isVisible, runToo⟩ | ⟨isFree, -⟩
    · obtain rfl : id = other := by simpa [visibleToo] using isVisible
      exact ⟨id, second, runToo, rfl, again, rfl, inside, by rw [← sameNode]; exact fit assumed⟩
    · rw [visibleToo] at isFree
      cases isFree
  · rw [stateAfter_ok run] at moved
    constructor
    · intro coherent
      rw [stateAfter_ok run]
      obtain ⟨recalls, kept⟩ := moved.coherent coherent
      refine ⟨recalls, kept, fun entry listed named => ?_⟩
      refine (List.mem_append.mp listed).resolve_right fun isNew => ?_
      rw [List.mem_singleton.mp isNew, TypeKey.isNamed_of_isComposite composite] at named
      cases named
    · intro assumed coherent value after runToo composes again _
      obtain ⟨rfl, rfl⟩ : before.types.size = value ∧ before.withType key node = after := by
        simpa [run] using runToo
      have visible : (before.withType key node).unit.visibleType? key = some before.types.size := by
        rw [CompiledUnit.visibleType?] at free ⊢
        simp [withType, List.lookup_append, free]
      have visibleToo := again.recalls.visibleType? (composes.visibleType? visible)
      rcases intern_cases key node second with ⟨other, isVisible, otherRun⟩ | ⟨isFree, -⟩
      · obtain rfl : before.types.size = other := by simpa [visibleToo] using isVisible
        refine ⟨_, second, otherRun, rfl, { again with }, rfl, by simp, fun element listed => ?_⟩
        rw [types_withType, TypeArena.node_alloc_size] at listed
        rw [types_withType, TypeArena.size_alloc]
        exact Nat.lt_succ_of_lt (fit assumed element listed)
      · rw [visibleToo] at isFree
        cases isFree

/-- A name denotes what it denoted. -/
theorem namedType {first copied : Token}
    (sameWord : copied.word = first.word)
    (alone : known → Text.IsWord first.text ∧
      ((ahead before).kind ≠ .dot → Undisturbed last second first.text)) :
    Repeats last rest room known before second (Parse.namedType first) (Parse.namedType copied)
      Eq FitType where
  composes := composing_namedType first before
  repeats assumed coherent value after run composes again _ := by
    obtain ⟨isWord, undisturbed⟩ := alone assumed
    obtain ⟨name, read, sameButTokens, denotes⟩ := namedType_ok run
    obtain ⟨tail, readToo, goesOn⟩ := again.dottedTail read composes.tokens
    obtain ⟨taken, split, -⟩ := Header.dottedTail_eq_some read
    have recalls : Recalls before second :=
      (Recalls.of_same sameButTokens ⟨taken, split.symm⟩).trans
        (composes.toRecalls.trans again.recalls)
    have denotesToo : second.unit.lookup? second.program.namespaces name = some value := by
      apply lookup?_of_recalls recalls coherent _ denotes
      intro undotted namespaceId type listed
      rcases Header.dottedTail_cases read isWord.1 coherent.spelled
        with ⟨rfl, -, alone⟩ | ⟨package, short, isDotted⟩
      · have inLast := undisturbed (ahead_ne (by decide) alone) namespaceId type listed
        rw [← sameButTokens.unit_eq]
        exact composes.names _ inLast rfl
      · rw [undotted] at isDotted
        cases isDotted
    rw [← Token.text_eq_of_word sameWord] at readToo
    obtain ⟨rounds, runToo⟩ := namedType_run readToo denotesToo
    refine ⟨value, _, runToo, rfl, ⟨{ goesOn.recalls with }, goesOn.stops, goesOn.copied⟩, rfl, ?_⟩
    rw [FitType, sameButTokens.types_eq]
    obtain ⟨namespaceId, short, listed⟩ := Reading.mem_table_of_lookup? denotes
    obtain ⟨inside, isNamed⟩ := coherent.table.sound _ listed
    exact ⟨inside, by simp [Reading.elements_of_named isNamed]⟩

section Loop

variable {step otherStep : σ → Parse (σ ⊕ α)} {post : α → ParseState → Prop}

/-- What a round of a loop must show: one that does not end the loop takes a token. -/
def TakesRound (invariant : σ → ParseState → Prop) (post : α → ParseState → Prop)
    (before : ParseState) (result : σ ⊕ α) (after _later : ParseState) : Prop :=
  match result with
  | .inl next => invariant next after ∧ after.tokens.length < before.tokens.length
  | .inr value => post value after

section Rounds

variable {invariant : σ → ParseState → Prop}
  (counts : ∀ current state, invariant current state → invariant current state.counted)
  (each : ∀ room current before second,
    Repeats last rest room (invariant current before) before second (step current)
      (otherStep current) Eq (TakesRound invariant post before))

include each

theorem composing_loopWithin (count : Nat) (current : σ) :
    Runs Composing (loopWithin (round step) count current) := by
  have counted : Runs Composing (modify ParseState.counted : Parse Unit) :=
    .changes fun _ => .of_same rfl (List.suffix_refl _)
  exact .loopWithin (fun current => .bind counted fun _ state =>
    (each 0 current state state).composes) count current

include counts

theorem loopWithin_again (count room : Nat) {current : σ} {before second after : ParseState} {value : α}
    (holds : invariant current before) (coherent : before.Coherent)
    (run : loopWithin (round step) count current before = .ok value after)
    (composes : Composes after last) (again : Again last rest before second)
    (shallow : second.tokens.length < rest.length + room) :
    ∃ copied later, loopWithin (round otherStep) room current second = .ok copied later ∧
      SameButTokens second later ∧ Again last rest after later ∧
      value = copied ∧ post value after := by
  induction count generalizing room current before second with
  | zero => cases run
  | succ count ih =>
      obtain ⟨less, rfl⟩ : ∃ less, room = less + 1 := by
        have enough := again.le_length
        exact ⟨room - 1, by omega⟩
      obtain ⟨answer, state, stepRun, restRun⟩ := bind_eq_ok.mp run
      have inRound := each (less + 1) current before.counted second.counted
      have coherentInRound : before.counted.Coherent := { coherent with }
      have start := inRound.composes coherentInRound
      rw [stateAfter_ok (show step current before.counted = _ from stepRun)] at start
      have behind : Composes state last := by
        cases answer with
        | inl next =>
            exact (stateAfter_ok restRun ▸ composing_loopWithin each count next state start.coherent).trans
              composes
        | inr result =>
            cases restRun
            exact composes
      obtain ⟨copied, later, otherRun, same, goesOn, rfl, holdsToo⟩ :=
        inRound.repeats (counts _ _ holds) coherentInRound answer state stepRun behind again.counted shallow
      have sameToo : SameButTokens second later :=
        SameButTokens.trans (show SameButTokens second second.counted from rfl) same
      have roundRun : round otherStep current second = .ok answer later := otherRun
      cases answer with
      | inl next =>
          obtain ⟨holdsNext, shorter⟩ := holdsToo
          have fewer := again.counted.length_lt goesOn shorter
          obtain ⟨result, final, finalRun, sameFinal, rest⟩ :=
            ih less holdsNext start.coherent restRun goesOn (by
              have sameLength : second.counted.tokens.length = second.tokens.length := rfl
              omega)
          exact ⟨result, final, (loopWithin_more less roundRun).trans finalRun,
            sameToo.trans sameFinal, rest⟩
      | inr result =>
          cases restRun
          exact ⟨_, later, loopWithin_done less roundRun, sameToo, goesOn, rfl, holdsToo⟩

end Rounds

/-- A loop is repeated if its rounds are. -/
theorem loop (invariant : σ → ParseState → Prop) {start : σ}
    (counts : ∀ current state, invariant current state → invariant current state.counted)
    (each : ∀ room current before second,
      Repeats last rest room (invariant current before) before second (step current)
        (otherStep current) Eq (TakesRound invariant post before)) :
    Repeats last rest room (invariant start before) before second (Parse.loop step start)
      (Parse.loop otherStep start) Eq fun value after _ => post value after where
  composes := Runs.bind .get (fun _ => composing_loopWithin each _ start) before
  repeats assumed coherent value after run composes again _ :=
    loopWithin_again counts each _ _ assumed coherent run composes again
      (show second.tokens.length < _ by omega)

end Loop

section Types

variable {inner otherInner : Parse TypeId}

theorem elementType
    (repeats : ∀ known before second,
      Repeats last rest room known before second inner otherInner Eq FitType) :
    Repeats last rest room known before second (Parse.elementType inner)
      (Parse.elementType otherInner) Eq FitType := by
  apply bind peek
  rintro token copied - state later
  apply bind (repeats _ _ _)
  rintro type _ rfl behind laterBehind
  apply bind (checkElement fun ⟨_, _, fit⟩ => fit.inside)
  rintro _ _ - checked laterChecked
  apply pure
  rintro ⟨⟨-, -, fit⟩, -, rfl⟩ -
  exact fit

theorem primitive (kind : Primitive) :
    Repeats last rest room known before second (Pure.pure kind.id) (Pure.pure kind.id) Eq FitType := by
  apply pure
  intro _ coherent
  obtain ⟨inside, denotes⟩ := coherent.table.sound _ (coherent.primitives kind)
  have node : before.types.node kind.id = .primitive kind := denotes
  exact ⟨inside, by simp [node, TypeNode.elements]⟩

theorem unsignedType : Repeats last rest room known before second Parse.unsignedType
    Parse.unsignedType Eq FitType := by
  apply bindNext
  · rintro token (isKind | isKind) state value after run <;> simp only [isKind] at run <;> cases run
  · intro token copied sameWord state later
    rw [Token.kind_eq_of_word sameWord]
    cases token.kind
    case char | byte => exact primitive .uchar
    case short => exact primitive .ushort
    case int => exact primitive .uint
    case long => exact primitive .ulong
    all_goals exact refused rfl

theorem listType
    (repeats : ∀ known before second,
      Repeats last rest room known before second inner otherInner Eq FitType) :
    Repeats last rest room known before second (Parse.listType inner) (Parse.listType otherInner)
      Eq FitType := by
  apply bind (expect (by decide) (by decide))
  rintro _ _ - opened laterOpened
  apply bind (elementType repeats)
  rintro element _ rfl read laterRead
  apply bind (expect (by decide) (by decide))
  rintro _ _ - closed laterClosed
  apply intern rfl (by rfl)
  rintro ⟨⟨-, -, fit⟩, grown, -⟩ part listed
  obtain rfl := List.mem_singleton.mp listed
  exact (fit.extend grown.types).inside

theorem mapType
    (repeats : ∀ known before second,
      Repeats last rest room known before second inner otherInner Eq FitType) :
    Repeats last rest room known before second (Parse.mapType inner) (Parse.mapType otherInner)
      Eq FitType := by
  apply bind (expect (by decide) (by decide))
  rintro _ _ - opened laterOpened
  apply bind (elementType repeats)
  rintro key _ rfl read laterRead
  apply bind (expect (by decide) (by decide))
  rintro _ _ - separated laterSeparated
  apply bind (elementType repeats)
  rintro value _ rfl readToo laterReadToo
  apply bind (expect (by decide) (by decide))
  rintro _ _ - closed laterClosed
  apply intern rfl (by rfl)
  rintro ⟨⟨⟨⟨-, -, keyFit⟩, separates, -⟩, reads, valueFit⟩, closes, -⟩ part listed
  rcases List.mem_pair.mp listed with rfl | rfl
  · exact (((keyFit.extend separates.types).extend reads.types).extend closes.types).inside
  · exact (valueFit.extend closes.types).inside

theorem composing_queueType (place : Position)
    (repeats : ∀ known before second,
      Repeats last rest room known before second inner otherInner Eq FitType) :
    Runs Composing (Parse.queueType inner place) := by
  have reads (state : ParseState) : Repeats last rest room True state state
      (Parse.elementType inner) (Parse.elementType otherInner) Eq FitType := elementType repeats
  have interns (element : TypeId) (state : ParseState) : Repeats last rest room False state state
      (Parse.intern (.queue element) (.queue element)) (Parse.intern (.queue element) (.queue element))
      Eq FitType := intern rfl (by rfl) False.elim
  refine .bind (composing_expect _ _) fun _ => .bind (fun state => (reads state).composes) fun type =>
    .bind (composing_expect _ _) fun _ => .bind .types fun arena => ?_
  exact .ite (composing_fail _ _) fun state => (interns type state).composes

theorem arraySuffix {base : TypeId} {place otherPlace : Position}
    (fit : known → before.types.Fit base) :
    Repeats last rest room known before second (Parse.arraySuffix base place)
      (Parse.arraySuffix base otherPlace) Eq FitType := by
  refine .under ?_ fit
  apply loop (fun type state => state.types.Fit type) (fun _ _ fit => fit)
  intro room type before second
  apply bind eatBracket
  rintro taken _ rfl opened laterOpened
  cases taken with
  | false => exact pure fun ⟨fit, opens, _⟩ _ => fit.extend opens.types
  | true =>
      apply bind (expect (by decide) (by decide))
      rintro _ _ - closed laterClosed
      apply bind (checkElement fun ⟨⟨fit, opens, _⟩, closes, _⟩ =>
        ((fit.extend opens.types).extend closes.types).inside)
      rintro _ _ - checked laterChecked
      refine bind (intern rfl (by rfl) ?_) ?_
      · rintro ⟨⟨⟨fit, opens, -⟩, closes, -⟩, checks, -⟩ part listed
        obtain rfl := List.mem_singleton.mp listed
        exact (((fit.extend opens.types).extend closes.types).extend checks.types).inside
      · rintro id _ rfl after laterAfter
        apply pure
        rintro ⟨⟨⟨⟨-, opens, -, shorter⟩, closes, -⟩, checks, -⟩, interns, fit⟩ -
        refine ⟨fit, Nat.lt_of_le_of_lt ?_ (shorter rfl)⟩
        exact (interns.tokens.trans (checks.tokens.trans closes.tokens)).length_le

theorem baseType {token copied : Token} (sameWord : copied.word = token.word)
    (notQueue : known → token.kind ≠ .sharedMemQueue)
    (alone : known → token.kind = .identifier → Text.IsWord token.text ∧
      ((ahead before).kind ≠ .dot → Undisturbed last second token.text))
    (repeats : ∀ known before second,
      Repeats last rest room known before second inner otherInner Eq FitType) :
    Repeats last rest room known before second (Parse.baseType inner token)
      (Parse.baseType otherInner copied) Eq FitType := by
  unfold Parse.baseType
  rw [Token.kind_eq_of_word sameWord]
  cases isKind : token.kind
  case boolean => exact primitive .boolean
  case byte | char => exact primitive .byte
  case short => exact primitive .short
  case int => exact primitive .int
  case long => exact primitive .long
  case float => exact primitive .float
  case double => exact primitive .double
  case string => exact primitive .string
  case fileDescriptor => exact primitive .fileDescriptor
  case unsigned => exact unsignedType
  case list => exact listType repeats
  case map => exact mapType repeats
  case sharedMemQueue =>
    exact ⟨composing_queueType token.place repeats before,
      fun assumed => absurd isKind (notQueue assumed)⟩
  case identifier => exact namedType sameWord fun holds => alone holds isKind
  all_goals exact refused rfl

theorem typeWithin (options : Options) (depth room : Nat) (known : Prop) (before second : ParseState) :
    Repeats last rest room known before second (Parse.typeWithin options depth)
      (Parse.typeWithin options room) Eq FitType := by
  induction depth generalizing room known before second with
  | zero => exact ⟨.refl, fun _ _ _ _ run => by cases run⟩
  | succ depth ih =>
      have deeper (less : Nat) : Repeats last rest (less + 1) known before second
          (Parse.typeWithin options (depth + 1)) (Parse.typeWithin options (less + 1)) Eq FitType := by
        apply bindNext
        · rintro token (isKind | isKind) state value after run <;>
            simp only [Parse.baseType, isKind] at run <;> cases run
        · intro token copied sameWord state later
          apply bind (baseType sameWord (fun ⟨_, noQueue, _⟩ => noQueue) (fun ⟨_, _, alone⟩ => alone)
            (ih less))
          rintro base _ rfl based laterBased
          apply bind (arraySuffix fun ⟨_, _, fit⟩ => fit)
          rintro type _ rfl suffixed laterSuffixed
          apply bind (checkSupport fun ⟨_, _, fit⟩ => fit)
          rintro _ _ - checked laterChecked
          exact pure fun ⟨⟨_, _, fit⟩, checks, _⟩ _ => fit.extend checks.types
      cases room with
      | zero => exact (deeper 0).noRoom
      | succ less => exact deeper less

end Types

end Repeats

end Parse

end DriverIdl
