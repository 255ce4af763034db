import DriverIdl.Proofs.Dump.Places
import DriverIdl.Proofs.Parsing.Repetition

/-!
# Reading words again

Two states are alike if no production can tell them apart but by the tokens ahead: their unit sees the
same types, in whatever order, and the types differ in their places.  `Replays` says that a
production reads certain words alike from all states that are like a given one; what it did the first
time, in front of other words, is kept in the state that they end in.
-/

namespace DriverIdl

/-- What a token says. -/
abbrev Word := TokenKind × String

/-- Words that start with none of some kinds. -/
def Apart (stops : List TokenKind) (words : List Word) : Prop :=
  ∀ word ∈ words.head?, word.1 ∉ stops

namespace Apart

variable {stops others : List TokenKind} {words : List Word}

theorem nil : Apart stops [] := by
  simp [Apart]

theorem cons {word : Word} (different : word.1 ∉ stops) : Apart stops (word :: words) := by
  simpa [Apart] using different

theorem mono (apart : Apart stops words) (fewer : others ⊆ stops) : Apart others words :=
  fun word isHead listed => apart word isHead (fewer listed)

end Apart

/-- Words that start with one of a kind. -/
def BeginsWith (kind : TokenKind) (words : List Word) : Prop :=
  ∃ word others, words = word :: others ∧ word.1 = kind

namespace ParseState

variable {first second before middle after final : ParseState}

/-- No production can tell two states apart, but by the tokens ahead. -/
structure Alike (first second : ParseState) : Prop where
  types : second.types.unplaced = first.types.unplaced
  namespaces : second.program.namespaces = first.program.namespaces
  units : second.program.units = first.program.units
  unit : second.unit = { first.unit with table := second.unit.table }
  visible : ∀ key, second.unit.visibleType? key = first.unit.visibleType? key
  sequenceables : second.sequenceables = first.sequenceables
  errors : second.errors = first.errors

namespace Alike

theorem refl (state : ParseState) : Alike state state := ⟨rfl, rfl, rfl, rfl, fun _ => rfl, rfl, rfl⟩

theorem symm (alike : Alike first second) : Alike second first where
  types := alike.types.symm
  namespaces := alike.namespaces.symm
  units := alike.units.symm
  unit := by rw [alike.unit]
  visible key := (alike.visible key).symm
  sequenceables := alike.sequenceables.symm
  errors := alike.errors.symm

theorem trans (alike : Alike first second) (later : Alike second final) : Alike first final where
  types := later.types.trans alike.types
  namespaces := later.namespaces.trans alike.namespaces
  units := later.units.trans alike.units
  unit := by rw [later.unit, alike.unit]
  visible key := (later.visible key).trans (alike.visible key)
  sequenceables := later.sequenceables.trans alike.sequenceables
  errors := later.errors.trans alike.errors

theorem size (alike : Alike first second) : second.types.size = first.types.size := by
  rw [← TypeArena.size_unplaced, alike.types, TypeArena.size_unplaced]

theorem namespaceId (alike : Alike first second) :
    second.unit.namespaceId = first.unit.namespaceId := by
  rw [alike.unit]

theorem name (alike : Alike first second) : second.unit.name = first.unit.name := by
  rw [alike.unit]

theorem definitions (alike : Alike first second) :
    second.unit.definitions = first.unit.definitions := by
  rw [alike.unit]

/-- Tokens, and the rounds that were counted, make no difference. -/
theorem of_second {tokens : List Token} {rounds : Nat} (alike : Alike first second) :
    Alike first { second with tokens := tokens, rounds := rounds } :=
  { alike with }

theorem of_first (alike : Alike before second) (same : Parse.SameButTokens before after) :
    Alike after second := by
  rw [Parse.SameButTokens] at same
  rw [same]
  exact { alike with }

theorem of_sameButTokens (same : Parse.SameButTokens first second) : Alike first second :=
  ((refl first).of_first same).symm

/-- Whatever type becomes known under a key in both states has the same number in both. -/
theorem withType (alike : Alike first second) (key : TypeKey) {node other : TypeNode}
    (same : other.unplaced = node.unplaced) :
    Alike (first.withType key node) (second.withType key other) where
  types := by
    rw [types_withType, types_withType, TypeArena.unplaced_alloc, TypeArena.unplaced_alloc,
      alike.types, same]
  namespaces := alike.namespaces
  units := alike.units
  unit := by rw [ParseState.withType, ParseState.withType, alike.unit]
  visible asked := by
    have visible := alike.visible asked
    simp only [CompiledUnit.visibleType?] at visible
    simp only [ParseState.withType, CompiledUnit.visibleType?, List.lookup_append, visible,
      alike.size]
  sequenceables := alike.sequenceables
  errors := alike.errors

/-- A change in place that commutes with forgetting places. -/
theorem update (alike : Alike first second) (id : TypeId) {change other common : TypeNode → TypeNode}
    (commutes : ∀ node, (change node).unplaced = common node.unplaced)
    (commutesToo : ∀ node, (other node).unplaced = common node.unplaced) :
    Alike
      { first with program :=
        { first.program with types := first.program.types.update id change } }
      { second with program :=
        { second.program with types := second.program.types.update id other } } :=
  { alike with
    types := by
      change (second.types.update id other).unplaced = (first.types.update id change).unplaced
      rw [TypeArena.unplaced_update _ id commutes, TypeArena.unplaced_update _ id commutesToo,
        alike.types] }

end Alike

end ParseState

namespace Parse

open ParseState

variable {α β σ : Type} {before middle after : ParseState} {words others : List Word} {word : Word}
  {behind behindNext : List Word → Prop} {answers : α → Prop} {answersNext : β → Prop}

theorem SameButTokens.refl (state : ParseState) : SameButTokens state state := rfl

theorem SameButTokens.errors_eq (same : SameButTokens before after) :
    after.errors = before.errors := by
  rw [SameButTokens] at same
  rw [same]

theorem SameButTokens.counted (state : ParseState) : SameButTokens state state.counted := rfl

/-- A production reads words again: from every state like the one before, with the words ahead and
behind them whatever may stand there, it takes the words, gives an answer of a sort, and ends in a
state like the one after. -/
def Replays (before after : ParseState) (words : List Word) (behind : List Word → Prop)
    (production : Parse α) (answers : α → Prop) : Prop :=
  ∀ second rest, Alike before second → second.tokens.map Token.word = words ++ rest →
    behind rest →
    ∃ value final, production second = .ok value final ∧ answers value ∧
      final.tokens.map Token.word = rest ∧ Alike after final

/-- The rounds that a loop went until it gave its value in the last state. -/
inductive Went (step : σ → Parse (σ ⊕ α)) (value : α) (last : ParseState) : ParseState → σ → Prop where
  | done {state : ParseState} {current : σ}
      (run : step current state.counted = .ok (.inr value) last) : Went step value last state current
  | more {state middle : ParseState} {current next : σ}
      (run : step current state.counted = .ok (.inl next) middle)
      (later : Went step value last middle next) : Went step value last state current

theorem Went.of_loop {step : σ → Parse (σ ⊕ α)} {current : σ} {value : α}
    (run : loop step current before = .ok value after) : Went step value after before current := by
  change loopWithin (round step) (before.tokens.length + 1) current before = _ at run
  generalize before.tokens.length + 1 = count at run
  induction count generalizing before current with
  | zero => cases run
  | succ count ih =>
      obtain ⟨result, middle, stepRun, rest⟩ := bind_eq_ok.mp run
      cases result with
      | inl next => exact .more stepRun (ih rest)
      | inr value =>
          cases rest
          exact .done stepRun

namespace Replays

theorem imp {production : Parse α} {weaker : α → Prop}
    (replays : Replays before after words behind production answers)
    (weaken : ∀ value, answers value → weaker value) :
    Replays before after words behind production weaker := by
  intro second rest alike tokens follows
  obtain ⟨value, final, run, holds, ends⟩ := replays second rest alike tokens follows
  exact ⟨value, final, run, weaken value holds, ends⟩

/-- What was read the first time in front of other tokens. -/
theorem congr {start last : ParseState} {production : Parse α}
    (replays : Replays before after words behind production answers)
    (starts : SameButTokens start before) (ends : SameButTokens after last) :
    Replays start last words behind production answers := by
  intro second rest alike tokens follows
  obtain ⟨value, final, run, holds, left, alikeToo⟩ :=
    replays second rest (alike.of_first starts) tokens follows
  exact ⟨value, final, run, holds, left, alikeToo.of_first ends⟩

/-- No production can tell where the words ended first. -/
theorem ends {production : Parse α} (replays : Replays before middle words behind production answers)
    (alike : Alike after middle) : Replays before after words behind production answers := by
  intro second rest alikeBefore tokens follows
  obtain ⟨value, final, run, holds, left, alikeMiddle⟩ :=
    replays second rest alikeBefore tokens follows
  exact ⟨value, final, run, holds, left, alike.trans alikeMiddle⟩

theorem pure {value : α} (holds : answers value) :
    Replays before before [] behind (Pure.pure value) answers := by
  intro second rest alike tokens _
  exact ⟨value, second, rfl, holds, tokens, alike⟩

/-- One production behind the other.  Whatever ends behind the second one must not go on the
first. -/
theorem bind {first : Parse α} {next : α → Parse β}
    (starts : Replays before middle words behind first answers)
    (goesOn : ∀ value, answers value → Replays middle after others behindNext (next value) answersNext)
    (between : ∀ rest, behindNext rest → behind (others ++ rest)) :
    Replays before after (words ++ others) behindNext (first >>= next) answersNext := by
  intro second rest alike tokens follows
  rw [List.append_assoc] at tokens
  obtain ⟨value, state, run, holds, left, alikeThere⟩ :=
    starts second (others ++ rest) alike tokens (between rest follows)
  obtain ⟨result, final, runNext, holdsNext, ends⟩ :=
    goesOn value holds state rest alikeThere left follows
  exact ⟨result, final, bind_eq_ok.mpr ⟨value, state, run, runNext⟩, holdsNext, ends⟩

/-- The first production ends by itself. -/
theorem seq {first : Parse α} {next : α → Parse β}
    (starts : Replays before middle words ⊤ first answers)
    (goesOn : ∀ value, answers value → Replays middle after others behindNext (next value) answersNext) :
    Replays before after (words ++ others) behindNext (first >>= next) answersNext :=
  bind starts goesOn fun _ _ => trivial

/-- What stands behind the first production is a word that ends it. -/
theorem seqStop {first : Parse α} {next : α → Parse β}
    (starts : Replays before middle words behind first answers)
    (follows : ∀ rest, behind (word :: rest))
    (goesOn : ∀ value, answers value →
      Replays middle after (word :: others) behindNext (next value) answersNext) :
    Replays before after (words ++ word :: others) behindNext (first >>= next) answersNext :=
  bind starts goesOn fun _ _ => follows _

/-- The second production takes no words. -/
theorem seqSilent {first : Parse α} {next : α → Parse β}
    (starts : Replays before middle words behind first answers)
    (goesOn : ∀ value, answers value → Replays middle after [] behind (next value) answersNext) :
    Replays before after words behind (first >>= next) answersNext := by
  have whole := bind starts goesOn fun _ follows => follows
  rwa [List.append_nil] at whole

/-- The first production takes no words. -/
theorem silentSeq {first : Parse α} {next : α → Parse β}
    (starts : Replays before middle [] ⊤ first answers)
    (goesOn : ∀ value, answers value → Replays middle after words behind (next value) answersNext) :
    Replays before after words behind (first >>= next) answersNext := by
  have whole := seq starts goesOn
  rwa [List.nil_append] at whole

/-- The first production takes no words, as long as the words behind it may stand there. -/
theorem silentBind {first : Parse α} {next : α → Parse β}
    (starts : Replays before middle [] behind first answers)
    (between : ∀ rest, behindNext rest → behind (words ++ rest))
    (goesOn : ∀ value, answers value → Replays middle after words behindNext (next value) answersNext) :
    Replays before after words behindNext (first >>= next) answersNext :=
  bind starts goesOn between

/-- A step that is known in every state alike. -/
theorem known {production : Parse α}
    (runs : ∀ second, Alike before second →
      ∃ value, production second = .ok value second ∧ answers value) :
    Replays before before [] behind production answers := by
  intro second rest alike tokens _
  obtain ⟨value, run, holds⟩ := runs second alike
  exact ⟨value, second, run, holds, tokens, alike⟩

/-- Looks at the state. -/
theorem getBind {next : ParseState → Parse α}
    (goesOn : ∀ second, Alike before second →
      Replays before after words behind (next second) answers) :
    Replays before after words behind (get >>= next) answers := by
  intro second rest alike tokens follows
  exact goesOn second alike second rest alike tokens follows

/-- Looks at the types. -/
theorem typesBind {next : TypeArena → Parse α}
    (goesOn : ∀ arena : TypeArena, arena.unplaced = before.types.unplaced →
      Replays before after words behind (next arena) answers) :
    Replays before after words behind (types >>= next) answers := by
  intro second rest alike tokens follows
  exact goesOn second.types alike.types second rest alike tokens follows

/-- The token ahead is the first word. -/
theorem ahead_ne {state : ParseState} {kind : TokenKind} (notEnd : kind ≠ .eof)
    (tokens : state.tokens.map Token.word = words) (apart : Apart [kind] words) :
    (ahead state).kind ≠ kind := by
  apply Parse.ahead_ne notEnd
  intro token isHead
  have isFirst : token.word ∈ words.head? := by
    rw [← tokens, List.head?_map]
    exact Option.mem_map_of_mem _ isHead
  simpa [Token.word] using apart _ isFirst

/-- What does not depend on the token ahead. -/
theorem peekAny {next : Token → Parse α}
    (goesOn : ∀ token, Replays before after words behind (next token) answers) :
    Replays before after words behind (peek >>= next) answers := by
  have looks : Replays before before [] ⊤ peek fun _ => True :=
    .known fun second _ => ⟨_, peek_run second, trivial⟩
  exact looks.silentSeq fun token _ => goesOn token

/-- Looks at the first word. -/
theorem peekBind {next : Token → Parse α}
    (goesOn : ∀ token, token.word = word →
      Replays before after (word :: words) behind (next token) answers) :
    Replays before after (word :: words) behind (peek >>= next) answers := by
  intro second rest alike tokens follows
  obtain ⟨token, tail, isAhead, isWord, -⟩ := List.map_eq_cons_iff.mp tokens
  have opened : (peek >>= next) second = next token second := by
    simp only [Bind.bind, EStateM.bind, peek_run, ahead_cons isAhead]
  rw [opened]
  exact goesOn token isWord second rest alike tokens follows

/-- Looks at the first word behind. -/
theorem peekBehind {next : Token → Parse α} {kind : TokenKind}
    (starts : ∀ rest, behind rest → BeginsWith kind rest)
    (goesOn : ∀ token : Token, token.kind = kind → Replays before after [] behind (next token) answers) :
    Replays before after [] behind (peek >>= next) answers := by
  intro second rest alike tokens follows
  obtain ⟨word, others, rfl, isKind⟩ := starts rest follows
  obtain ⟨token, tail, isAhead, isWord, -⟩ := List.map_eq_cons_iff.mp tokens
  have opened : (peek >>= next) second = next token second := by
    simp only [Bind.bind, EStateM.bind, peek_run, ahead_cons isAhead]
  rw [opened]
  exact goesOn token (by rw [← isKind, ← isWord, Token.word]) second _ alike tokens follows

/-- Looks at what is behind, which does not start with a word of a kind. -/
theorem peekApart {next : Token → Parse α} {kind : TokenKind} (notEnd : kind ≠ .eof)
    (apart : ∀ rest, behind rest → Apart [kind] rest)
    (goesOn : ∀ token : Token, token.kind ≠ kind → Replays before after [] behind (next token) answers) :
    Replays before after [] behind (peek >>= next) answers := by
  intro second rest alike tokens follows
  have opened : (peek >>= next) second = next (ahead second) second := by
    simp only [Bind.bind, EStateM.bind, peek_run]
  rw [opened]
  exact goesOn _ (ahead_ne notEnd tokens (apart rest follows)) second rest alike tokens follows

/-- Looks at the end of the file. -/
theorem peekEnd {next : Token → Parse α} (ends : ∀ rest, behind rest → rest = [])
    (goesOn : ∀ token : Token, token.kind = .eof → Replays before after [] behind (next token) answers) :
    Replays before after [] behind (peek >>= next) answers := by
  intro second rest alike tokens follows
  obtain rfl := ends rest follows
  have nothing : second.tokens = [] := List.map_eq_nil_iff.mp tokens
  have opened : (peek >>= next) second = next (ahead second) second := by
    simp only [Bind.bind, EStateM.bind, peek_run]
  rw [opened]
  exact goesOn _ (by simp [ahead, nothing]) second [] alike tokens follows

theorem next : Replays before before [word] behind next fun token => token.word = word := by
  intro second rest alike tokens _
  obtain ⟨token, tail, isAhead, isWord, left⟩ := List.map_eq_cons_iff.mp tokens
  exact ⟨token, _, next_taken isAhead, isWord, left, alike.of_second⟩

theorem expect {kind : TokenKind} {expected : String} (isKind : word.1 = kind) :
    Replays before before [word] behind (expect kind expected) fun token => token.word = word := by
  intro second rest alike tokens _
  obtain ⟨token, tail, isAhead, isWord, left⟩ := List.map_eq_cons_iff.mp tokens
  have sameKind : token.kind = kind := (congrArg Prod.fst isWord).trans isKind
  exact ⟨token, _, expect_taken isAhead sameKind, isWord, left, alike.of_second⟩

theorem eat {kind : TokenKind} (isKind : word.1 = kind) :
    Replays before before [word] behind (eat kind) fun taken => taken = true := by
  intro second rest alike tokens _
  obtain ⟨token, tail, isAhead, isWord, left⟩ := List.map_eq_cons_iff.mp tokens
  have sameKind : token.kind = kind := (congrArg Prod.fst isWord).trans isKind
  exact ⟨true, _, eat_taken isAhead sameKind, rfl, left, alike.of_second⟩

theorem eatMissing {kind : TokenKind} (notEnd : kind ≠ .eof)
    (apart : ∀ rest, behind rest → Apart [kind] rest) :
    Replays before before [] behind (Parse.eat kind) fun taken => taken = false := by
  intro second rest alike tokens follows
  have missing := ahead_ne notEnd tokens (apart rest follows)
  exact ⟨false, second, eat_missing missing, rfl, tokens, alike⟩

theorem attempt {production : Parse α}
    (replays : Replays before after words behind production answers) :
    Replays before after words behind (Parse.attempt production)
      fun result => ∃ value, result = some value ∧ answers value := by
  intro second rest alike tokens follows
  obtain ⟨value, final, run, holds, ends⟩ := replays second rest alike tokens follows
  exact ⟨some value, final, by rw [Parse.attempt, run], ⟨value, rfl, holds⟩, ends⟩

/-- A change that keeps states alike. -/
theorem modify {change : ParseState → ParseState} {value : Unit}
    (keeps : ∀ second, Alike before second → Alike after (change second))
    (tokens : ∀ second, (change second).tokens = second.tokens) :
    Replays before after [] behind (MonadState.modifyGet fun state => (value, change state))
      fun _ => True := by
  intro second rest alike left _
  exact ⟨value, change second, rfl, trivial, by rw [tokens]; exact left, keeps second alike⟩

/-- A type is looked up, or added on first use, under the same number. -/
theorem intern {key : TypeKey} {node other : TypeNode} {type : TypeId}
    (same : other.unplaced = node.unplaced) (run : intern key node before = .ok type after) :
    Replays before after [] behind (intern key other) fun id => id = type := by
  intro second rest alike tokens _
  have visible := alike.visible key
  rcases intern_cases key node before with ⟨id, isVisible, runToo⟩ | ⟨isFree, runToo⟩
  · obtain ⟨rfl, rfl⟩ : id = type ∧ before = after := by simpa [runToo] using run
    rcases intern_cases key other second with ⟨found, isVisibleToo, again⟩ | ⟨isFreeToo, -⟩
    · obtain rfl : found = id := by simpa [visible, isVisible] using isVisibleToo.symm
      exact ⟨found, second, again, rfl, tokens, alike⟩
    · simp [visible, isVisible] at isFreeToo
  · obtain ⟨rfl, rfl⟩ : before.types.size = type ∧ before.withType key node = after := by
      simpa [runToo] using run
    rcases intern_cases key other second with ⟨found, isVisibleToo, -⟩ | ⟨-, again⟩
    · simp [visible, isFree] at isVisibleToo
    · exact ⟨_, _, again, alike.size, tokens, alike.withType key same⟩

section Loop

variable {step : σ → Parse (σ ⊕ α)} {current : σ}

/-- The rounds of a loop read words again, if there are more rounds than words. -/
def Rounds (before after : ParseState) (words : List Word) (behind : List Word → Prop)
    (step : σ → Parse (σ ⊕ α)) (current : σ) (answers : α → Prop) : Prop :=
  ∀ count, words.length < count →
    Replays before after words behind (loopWithin (round step) count current) answers

theorem round {stepAnswers : σ ⊕ α → Prop}
    (replays : Replays before after words behind (step current) stepAnswers) :
    Replays before after words behind (Parse.round step current) stepAnswers := by
  intro second rest alike tokens follows
  exact replays second.counted rest alike.of_second tokens follows

theorem Rounds.done
    (ends : Replays before after words behind (step current)
      fun result => ∃ value, result = .inr value ∧ answers value) :
    Rounds before after words behind step current answers := by
  intro count enough
  obtain ⟨count, rfl⟩ := Nat.exists_eq_succ_of_ne_zero (Nat.ne_of_gt (Nat.zero_lt_of_lt enough))
  apply seqSilent (round ends)
  rintro _ ⟨value, rfl, holds⟩
  exact pure holds

theorem Rounds.more {nexts : σ → Prop} (nonempty : words ≠ [])
    (goesOn : Replays before middle words ⊤ (step current)
      fun result => ∃ next, result = .inl next ∧ nexts next)
    (later : ∀ next, nexts next → Rounds middle after others behind step next answers) :
    Rounds before after (words ++ others) behind step current answers := by
  intro count enough
  obtain ⟨count, rfl⟩ := Nat.exists_eq_succ_of_ne_zero (Nat.ne_of_gt (Nat.zero_lt_of_lt enough))
  apply seq (round goesOn)
  rintro _ ⟨next, rfl, isNext⟩
  apply later next isNext
  have positive := List.length_pos_of_ne_nil nonempty
  rw [List.length_append] at enough
  omega

theorem loop (rounds : Rounds before after words behind step current answers) :
    Replays before after words behind (loop step current) answers := by
  intro second rest alike tokens follows
  apply rounds _ _ second rest alike tokens follows
  have same := congrArg List.length tokens
  rw [List.length_map, List.length_append] at same
  omega

end Loop

end Replays

end Parse

end DriverIdl
