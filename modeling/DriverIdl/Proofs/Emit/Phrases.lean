import DriverIdl.Proofs.Emit.CodeCalls
import DriverIdl.Proofs.Emit.Placement
import DriverIdl.Proofs.Program.Spelling

/-!
# Calls and phrases

What the lines of generated code are made of that both languages share: names of functions, calls
that get a parcel, and phrases that call nothing.  The parcels of a function have names that no other
first argument has.
-/

namespace DriverIdl

open CodeLexeme

section Names

theorem CodeLexeme.joins_of_isWordChar {character : Char} (word : isWordChar character = true) :
    joins character = true := by
  by_contra apart
  simp only [joins, Bool.and_eq_true, Bool.not_eq_true', bne_iff_ne, ne_eq, not_and_or, not_not,
    Bool.not_eq_false] at apart
  rcases apart with separated | rfl
  · simp only [separates, List.contains_eq_mem, List.mem_cons, List.not_mem_nil, or_false,
      decide_eq_true_eq] at separated
    rcases separated with rfl | rfl | rfl | rfl | rfl | rfl | rfl | rfl | rfl | rfl <;> cases word
  · cases word

theorem Text.IsWord.isRun {word : String} (isWord : Text.IsWord word) : IsRun word :=
  ⟨isWord.1, List.all_eq_true.mpr fun character inside =>
    joins_of_isWordChar (isWord.2 character inside)⟩

namespace Callee

/-- The name of a function that is no member of an object. -/
def IsName (name : List Char) : Prop :=
  ∀ character ∈ name, (isWordChar character || character == ':') = true

theorem ofFunction?_eq_none {name : List Char} {character : Char} (inside : character ∈ name)
    (foreign : (isWordChar character || character == ':') = false) (other : name ≠ writingQueue)
    (unread : ¬readingQueue <:+ name) : ofFunction? name = none := by
  have notName : ¬name.all (fun character => isWordChar character || character == ':') = true := by
    intro all
    rw [List.all_eq_true.mp all character inside] at foreign
    cases foreign
  rw [ofFunction?, if_neg (by simp [other, unread]), if_neg notName]

/-- The name of a member of an object, unless it is one of a queue. -/
theorem ofFunction?_member {name : List Char} {first : Char} {rest : List Char}
    (spelled : name = first :: rest) (notMember : first ≠ '-') (isMember : '-' ∈ name)
    (unqualified : ':' ∉ name) : ofFunction? name = none := by
  refine ofFunction?_eq_none isMember rfl ?_ fun ends => unqualified (ends.subset (by decide))
  rintro rfl
  rw [writingQueue, List.cons.injEq] at spelled
  exact notMember spelled.1.symm

/-- A function with template arguments. -/
theorem ofFunction?_template {name : List Char} (ends : name.getLast? = some '>') :
    ofFunction? name = none := by
  refine ofFunction?_eq_none (List.mem_of_getLast? ends) rfl ?_ ?_
  · rintro rfl
    exact absurd ends (by decide)
  · rintro ⟨front, rfl⟩
    rw [List.getLast?_append_of_ne_nil _ (by decide)] at ends
    exact absurd ends (by decide)

theorem ofMethod?_writing (kind : List Char) :
    ofMethod? (writing ++ kind) = some (.plain (kind.takeWhile (· != '<'))) := by
  have dropped : (writing ++ kind).dropPrefix? writing = some kind :=
    List.dropPrefix?_eq_some_iff.mpr ⟨writing, rfl, by simp⟩
  rw [ofMethod?, dropped]
  rfl

theorem ofMethod?_reading (kind : List Char) :
    ofMethod? (reading ++ kind) = some (.plain (kind.takeWhile (· != '<'))) := by
  have dropped : (reading ++ kind).dropPrefix? reading = some kind :=
    List.dropPrefix?_eq_some_iff.mpr ⟨reading, rfl, by simp⟩
  have unwritten : (reading ++ kind).dropPrefix? writing = none := by
    simp [List.dropPrefix?, reading, writing]
  rw [ofMethod?, unwritten, dropped]
  rfl

theorem ofFunction?_name {name : List Char} (isName : IsName name)
    (unread : ¬readingQueue <:+ name) :
    ofFunction? name =
      (((name.dropSuffix? writingBlock) <|> (name.dropSuffix? readingBlock)).map .block <|>
        ((name.dropPrefix? (onBuffer ++ writing)) <|>
          (name.dropPrefix? (onBuffer ++ reading))).map .plain) := by
  have notQueue : name ≠ writingQueue := by
    rintro rfl
    exact absurd (isName '-' (by decide)) (by decide)
  rw [ofFunction?, if_neg (by simp [notQueue, unread]), if_pos (List.all_eq_true.mpr isName)]

/-- A suffix of a name that ends in a longer one is a suffix of that one. -/
theorem suffix_of_suffix_append {ending suffix : List Char} (record : List Char)
    (shorter : ending.length ≤ suffix.length) (ends : ending <:+ record ++ suffix) :
    ending <:+ suffix :=
  List.suffix_of_suffix_length_le ends (List.suffix_append _ _) shorter

theorem dropSuffix?_append (record suffix : List Char) :
    (record ++ suffix).dropSuffix? suffix = some record :=
  List.dropSuffix?_eq_some_iff.mpr ⟨suffix, rfl, by simp⟩

theorem dropSuffix?_eq_none {name suffix : List Char} (apart : ¬suffix <:+ name) :
    name.dropSuffix? suffix = none := by
  cases found : name.dropSuffix? suffix with
  | none => rfl
  | some record =>
      obtain ⟨ending, rfl, same⟩ := List.dropSuffix?_eq_some_iff.mp found
      rw [eq_of_beq same] at apart
      exact absurd (List.suffix_append _ _) apart

theorem IsName.append {record suffix : List Char} (isName : IsName record)
    (ends : IsName suffix) : IsName (record ++ suffix) :=
  fun character inside => (List.mem_append.mp inside).elim (isName character) (ends character)

theorem ofFunction?_writingBlock {record : List Char} (isName : IsName record) :
    ofFunction? (record ++ writingBlock) = some (.block record) := by
  have whole : IsName (record ++ writingBlock) := isName.append (List.all_eq_true.mp rfl)
  have unread : ¬readingQueue <:+ record ++ writingBlock := fun ends =>
    absurd (suffix_of_suffix_append record (by decide) ends) (by decide)
  rw [ofFunction?_name whole unread, dropSuffix?_append]
  rfl

theorem ofFunction?_readingBlock {record : List Char} (isName : IsName record) :
    ofFunction? (record ++ readingBlock) = some (.block record) := by
  have whole : IsName (record ++ readingBlock) := isName.append (List.all_eq_true.mp rfl)
  have unread : ¬readingQueue <:+ record ++ readingBlock := fun ends =>
    absurd (suffix_of_suffix_append record (by decide) ends) (by decide)
  have unwritten : ¬writingBlock <:+ record ++ readingBlock := fun ends =>
    absurd (suffix_of_suffix_append record (by decide) ends) (by decide)
  rw [ofFunction?_name whole unread, dropSuffix?_eq_none unwritten, dropSuffix?_append]
  rfl

end Callee

theorem Text.IsWord.isName {word : String} (isWord : Text.IsWord word) :
    Callee.IsName word.toList := by
  intro character inside
  rw [isWord.2 character inside, Bool.true_or]

/-- The name of a parcel.  No other first argument is a word that ends like this. -/
def Callee.IsParcel (parcel : List Char) : Prop :=
  Text.OnlyWord parcel ∧ (parcel.getLast? = some 'a' ∨ parcel.getLast? = some 'y')

/-- The parcel of the functions of a struct. -/
theorem Callee.isParcel_block : IsParcel "data".toList := ⟨List.all_eq_true.mp rfl, .inl rfl⟩

namespace Callee.IsParcel

variable {parcel other : List Char}

theorem ne_of_getLast? (isParcel : IsParcel parcel) {last : Char} (ends : other.getLast? = some last)
    (differs : last ≠ 'a' ∧ last ≠ 'y') : other ≠ parcel := by
  rintro rfl
  rcases isParcel.2 with same | same <;> rw [ends, Option.some_inj] at same
  · exact differs.1 same
  · exact differs.2 same

theorem ne_of_mem (isParcel : IsParcel parcel) {character : Char} (inside : character ∈ other)
    (foreign : isWordChar character = false) : other ≠ parcel := by
  rintro rfl
  rw [isParcel.1 character inside] at foreign
  cases foreign

end Callee.IsParcel

end Names

section Calls

variable {parcel : List Char} {buffer : String}

/-- What is called on a parcel, if it is the one that is asked for. -/
def Callee.on {α : Type} (parcel : List Char) (buffer : String) (calls : List α) : List α :=
  if buffer.toList = parcel then calls else []

theorem Callee.on_append {α : Type} (first second : List α) :
    on parcel buffer (first ++ second) = on parcel buffer first ++ on parcel buffer second := by
  unfold on
  split <;> simp

theorem Callee.on_map {α β : Type} (change : α → β) (calls : List α) :
    (on parcel buffer calls).map change = on parcel buffer (calls.map change) := by
  unfold on
  split <;> simp

theorem Callee.on_nil {α : Type} : on parcel buffer ([] : List α) = [] := by simp [on]

theorem Callee.on_flatMap {α β : Type} (items : List α) (calls : α → List β) :
    items.flatMap (fun item => on parcel buffer (calls item)) =
      on parcel buffer (items.flatMap calls) := by
  unfold on
  split <;> simp

theorem Callee.on_around (block : Block) (calls : List WireCall) :
    on parcel buffer (block.around calls) = block.around (on parcel buffer calls) := by
  unfold on
  split
  · rfl
  · cases block <;> rfl

theorem Callee.on_self {α : Type} (calls : List α) : on buffer.toList buffer calls = calls :=
  if_pos rfl

theorem Callee.on_other {α : Type} (differs : buffer.toList ≠ parcel) (calls : List α) :
    on parcel buffer calls = [] :=
  if_neg differs

/-- A sign that ends a run of characters, keeps a line whole and opens no call. -/
def divides (sign : Char) : Bool := separates sign && tames sign && sign != '('

theorem divides_iff {sign : Char} :
    divides sign = true ↔ separates sign = true ∧ tames sign = true ∧ sign ≠ '(' := by
  rw [divides, Bool.and_eq_true, Bool.and_eq_true, and_assoc, bne_iff_ne]

/-- A sign between two texts; the first one calls nothing. -/
theorem Tells.join {text first second : String} {callees : List Callee} (sign : Char)
    (isFirst : Tells parcel first []) (isSecond : Tells parcel second callees)
    (spelled : text.toList = first.toList ++ sign :: second.toList) (isSign : divides sign = true) :
    Tells parcel text callees := by
  have isSign := divides_iff.mp isSign
  have unquoted := @Tame.not_mem _ isFirst.tame '"' rfl
  have notQuote : sign ≠ '"' := by
    rintro rfl
    exact absurd isSign.2.1 (by decide)
  refine tells_iff.mpr ?_
  rw [spelled, lexFrom_append_sign unquoted isSign.1, lexFrom_of_separates isSign.1,
    decide_eq_false notQuote, List.all_append, List.all_cons, isFirst.calm, isSecond.calm,
    Callee.inRow_append_sign isSign.2.2, isFirst.callees_eq, isSecond.callees_eq]
  exact ⟨by simp [calms, isSign.2.1], rfl⟩

/-- A call that gets a parcel first; nothing else in it calls something. -/
theorem Tells.call {text function tail : String} (sign : Char) (isRun : IsRun function)
    (isBuffer : IsRun buffer) (told : Tells parcel tail [])
    (spelled : text.toList = function.toList ++ '(' :: (buffer.toList ++ sign :: tail.toList))
    (isSign : divides sign = true) :
    Tells parcel text (Callee.on parcel buffer (Callee.ofFunction? function.toList).toList) := by
  have isSign := divides_iff.mp isSign
  have notQuote : sign ≠ '"' := by
    rintro rfl
    exact absurd isSign.2.1 (by decide)
  have lexed : lexFrom false text.toList = .run function.toList :: .sign '(' ::
      .run buffer.toList :: .sign sign :: lexFrom false tail.toList := by
    rw [spelled, isRun.lexFrom_append, lexFrom_opening, isBuffer.lexFrom_append,
      lexFrom_of_separates isSign.1, decide_eq_false notQuote, extend_sign, extend_sign]
  refine tells_iff.mpr ?_
  rw [lexed]
  refine ⟨?_, ?_⟩
  · simp only [List.all_cons, calms_run, Bool.true_and, told.calm, Bool.and_true]
    exact Bool.and_eq_true_iff.mpr ⟨rfl, isSign.2.1⟩
  · rw [Callee.inRow_call isRun.undotted, Callee.inRow_run_sign isBuffer.undotted isSign.2.2,
      told.callees_eq, List.append_nil]
    rfl

theorem tells_empty : Tells parcel "" [] := ⟨rfl, rfl⟩

/-- A call of a function that is no parcel function. -/
theorem Tells.idle {text function behind : String} {callees : List Callee} (isRun : IsRun function)
    (idle : Callee.ofFunction? function.toList = none) (told : Tells parcel behind callees)
    (spelled : text.toList = function.toList ++ '(' :: behind.toList) : Tells parcel text callees := by
  refine tells_iff.mpr ?_
  rw [spelled, isRun.lexFrom_append, lexFrom_opening, extend_sign]
  refine ⟨?_, ?_⟩
  · rw [List.all_cons, List.all_cons, told.calm]
    rfl
  · rw [Callee.inRow_idle isRun.undotted idle, Callee.inRow_sign, told.callees_eq]

theorem Tells.opened {text behind : String} {callees : List Callee}
    (told : Tells parcel behind callees) (spelled : text.toList = '(' :: behind.toList) :
    Tells parcel text callees := by
  refine tells_iff.mpr ?_
  rw [spelled, lexFrom_opening, List.all_cons, told.calm, Callee.inRow_sign]
  exact ⟨rfl, told.callees_eq⟩

/-- A text in parentheses in front of another one. -/
theorem Tells.grouped {text first second : String} {callees : List Callee}
    (isFirst : Tells parcel first []) (isSecond : Tells parcel second callees)
    (spelled : text.toList = '(' :: (first.toList ++ ')' :: second.toList)) :
    Tells parcel text callees := by
  have inner : Tells parcel (first ++ ")" ++ second) callees :=
    .join ')' isFirst isSecond (by simp) rfl
  exact .opened inner (by simp [spelled])

/-- A call without arguments. -/
theorem Tells.nullary {text first second : String} {callees : List Callee}
    (isFirst : Tells parcel first []) (isSecond : Tells parcel second callees)
    (spelled : text.toList = first.toList ++ '(' :: ')' :: second.toList) :
    Tells parcel text callees := by
  have unquoted := @Tame.not_mem _ isFirst.tame '"' rfl
  refine tells_iff.mpr ?_
  rw [spelled, lexFrom_append_sign unquoted rfl, lexFrom_opening, lexFrom_closing,
    List.all_append, List.all_cons, List.all_cons, isFirst.calm, isSecond.calm,
    Callee.inRow_append_sign_sign, isFirst.callees_eq, isSecond.callees_eq]
  exact ⟨rfl, rfl⟩

/-- A method of what a call gives is none of a parcel. -/
theorem Tells.chained {text method behind : String} {callees : List Callee}
    (isParcel : Callee.IsParcel parcel) (isMethod : IsRun method) (told : Tells parcel behind callees)
    (spelled : text.toList = '.' :: (method.toList ++ '(' :: behind.toList)) :
    Tells parcel text callees := by
  have dot : ¬separates '.' := by decide
  have other : [] ≠ parcel := by
    rintro rfl
    exact absurd isParcel.2 (by decide)
  have lexed : lexFrom false text.toList =
      .run ([] ++ '.' :: method.toList) :: .sign '(' :: lexFrom false behind.toList := by
    rw [spelled, lexFrom_of_not_separates dot, isMethod.lexFrom_append, lexFrom_opening, extend_sign,
      extend_run]
    rfl
  refine tells_iff.mpr ?_
  rw [lexed]
  refine ⟨?_, ?_⟩
  · rw [List.all_cons, List.all_cons, told.calm]
    rfl
  · rw [Callee.inRow_method List.not_mem_nil, if_neg other, Callee.inRow_sign, told.callees_eq]
    rfl

/-- A method of a parcel is called. -/
theorem Tells.method {text method tail : String} (isBuffer : IsRun buffer) (isMethod : IsRun method)
    (told : Tells parcel tail [])
    (spelled : text.toList = buffer.toList ++ '.' :: (method.toList ++ '(' :: tail.toList)) :
    Tells parcel text (Callee.on parcel buffer (Callee.ofMethod? method.toList).toList) := by
  have dot : ¬separates '.' := by decide
  have lexed : lexFrom false text.toList =
      .run (buffer.toList ++ '.' :: method.toList) :: .sign '(' :: lexFrom false tail.toList := by
    rw [spelled, isBuffer.lexFrom_append, lexFrom_of_not_separates dot, isMethod.lexFrom_append,
      lexFrom_opening, extend_sign, extend_run, extend_run]
    rfl
  refine tells_iff.mpr ?_
  rw [lexed]
  refine ⟨?_, ?_⟩
  · rw [List.all_cons, List.all_cons, told.calm]
    rfl
  · rw [Callee.inRow_method isBuffer.undotted, Callee.inRow_sign, told.callees_eq, List.append_nil]
    rfl

/-- Whether a call succeeds that gets a parcel and arguments. -/
theorem Tells.callNot {text function arguments : String} (isRun : IsRun function)
    (isBuffer : IsRun buffer) (told : Tells parcel arguments [])
    (spelled : text.toList = '!' :: (function.toList ++ '(' :: (buffer.toList ++ ',' :: ' ' ::
      (arguments.toList ++ [')'])))) :
    Tells parcel text (Callee.on parcel buffer (Callee.ofFunction? function.toList).toList) := by
  have closed : Tells parcel (arguments ++ ")") [] := .join ')' told tells_empty (by simp) rfl
  have tail : Tells parcel (" " ++ arguments ++ ")") [] :=
    .join ' ' tells_empty closed (by simp) rfl
  have called : Tells parcel (function ++ "(" ++ buffer ++ ", " ++ arguments ++ ")") _ :=
    .call ',' isRun isBuffer tail (by simp) rfl
  exact .join '!' tells_empty called (by simp [spelled]) rfl

/-- What a call gives that gets a parcel only is assigned. -/
theorem Tells.fetch {text target function : String} (isTarget : Tells parcel target [])
    (isRun : IsRun function) (isBuffer : IsRun buffer)
    (spelled : text.toList = target.toList ++ ' ' :: '=' :: ' ' :: (function.toList ++
      '(' :: (buffer.toList ++ [')', ';']))) :
    Tells parcel text (Callee.on parcel buffer (Callee.ofFunction? function.toList).toList) := by
  have tail : Tells parcel ";" [] := tells_iff.mpr (by simp +decide)
  have assigned : Tells parcel "=" [] := tells_iff.mpr (by simp +decide)
  have called : Tells parcel (function ++ "(" ++ buffer ++ ");") _ :=
    .call ')' isRun isBuffer tail (by simp) rfl
  have behind : Tells parcel ("= " ++ function ++ "(" ++ buffer ++ ");") _ :=
    .join ' ' assigned called (by simp) rfl
  exact .join ' ' isTarget behind (by simp [spelled]) rfl

end Calls

section Phrases

theorem IsPhrase.behind {word phrase : String} (isWord : IsRun word) (isPhrase : IsPhrase phrase) :
    IsPhrase (word ++ " " ++ phrase) := by
  obtain ⟨front, last, undotted, calm, quiet, lexed⟩ := isPhrase
  refine ⟨.run word.toList :: .sign ' ' :: front, last, undotted, calm, fun parcel rest => ?_,
    fun rest => ?_⟩
  · simp [isWord, quiet]
  · simp [isWord, lexed]

theorem IsPhrase.append {phrase word : String} (isPhrase : IsPhrase phrase) (isWord : IsRun word) :
    IsPhrase (phrase ++ word) := by
  obtain ⟨front, last, undotted, calm, quiet, lexed⟩ := isPhrase
  refine ⟨front, last ++ word.toList, by simp [undotted, isWord], calm, quiet, fun rest => ?_⟩
  simp [isWord, lexed, extend_extend]

/-- A character of a text in which only commas and blanks separate. -/
def CodeLexeme.spaces (character : Char) : Bool :=
  joins character || character == ',' || character == ' '

theorem CodeLexeme.IsRun.spaces {text : String} (isRun : IsRun text) :
    text.toList.all spaces = true :=
  List.all_eq_true.mpr fun character inside => by
    rw [CodeLexeme.spaces, List.all_eq_true.mp isRun.2 character inside, Bool.true_or, Bool.true_or]

theorem CodeLexeme.IsRun.ends {text : String} (isRun : IsRun text) :
    ∃ last ∈ text.toList.getLast?, joins last = true :=
  ⟨_, List.getLast?_eq_some_getLast isRun.1,
    List.all_eq_true.mp isRun.2 _ (List.getLast_mem isRun.1)⟩

/-- Lexemes of such a text, up to a sign. -/
inductive CodeLexeme.Spaced : List CodeLexeme → Prop
  | nil : Spaced []
  | sign {rest : List CodeLexeme} {sign : Char} (isSign : sign = ',' ∨ sign = ' ')
      (spaced : Spaced rest) : Spaced (.sign sign :: rest)
  | run {text : List Char} {rest : List CodeLexeme} {sign : Char} (undotted : '.' ∉ text)
      (isSign : sign = ',' ∨ sign = ' ') (spaced : Spaced rest) :
      Spaced (.run text :: .sign sign :: rest)

namespace CodeLexeme.Spaced

variable {front : List CodeLexeme}

theorem calm (spaced : Spaced front) : front.all calms = true := by
  induction spaced with
  | nil => rfl
  | sign isSign _ ih => rcases isSign with rfl | rfl <;> exact ih
  | run _ isSign _ ih => rcases isSign with rfl | rfl <;> exact ih

theorem quiet (spaced : Spaced front) (parcel : List Char) (rest : List CodeLexeme) :
    Callee.inRow parcel (front ++ rest) = Callee.inRow parcel rest := by
  induction spaced with
  | nil => rfl
  | sign _ _ ih => exact ih
  | @run _ _ sign undotted isSign _ ih =>
      have closed : sign ≠ '(' := by
        rcases isSign with rfl | rfl <;> decide
      exact (Callee.inRow_run_sign undotted closed _).trans ih

/-- A character in front belongs to the first run. -/
theorem extend (spaced : Spaced front) {character : Char} (joined : joins character = true)
    {last : List Char} (undotted : '.' ∉ last) :
    ∃ front' last', Spaced front' ∧ '.' ∉ last' ∧ ∀ behind,
      CodeLexeme.extend [character] (front ++ CodeLexeme.extend last behind) =
        front' ++ CodeLexeme.extend last' behind := by
  have notDot : '.' ≠ character := by
    rintro rfl
    cases joined
  cases spaced with
  | nil => exact ⟨[], character :: last, .nil, by simp [notDot, undotted], fun _ => extend_extend _ _ _⟩
  | @sign rest sign isSign spaced =>
      exact ⟨.run [character] :: .sign sign :: rest, last, .run (by simp [notDot]) isSign spaced,
        undotted, fun _ => rfl⟩
  | @run text rest sign inside isSign spaced =>
      exact ⟨.run (character :: text) :: .sign sign :: rest, last,
        .run (by simp [notDot, inside]) isSign spaced, undotted, fun _ => rfl⟩

end CodeLexeme.Spaced

theorem CodeLexeme.exists_spaced {text : List Char} (spaced : text.all spaces = true)
    (ends : ∃ last ∈ text.getLast?, joins last = true) :
    ∃ front last, Spaced front ∧ '.' ∉ last ∧
      ∀ rest, lexFrom false (text ++ rest) = front ++ extend last (lexFrom false rest) := by
  induction text with
  | nil => simp at ends
  | cons character rest ih =>
      rw [List.all_cons, Bool.and_eq_true] at spaced
      have apart (joined : joins character = true) : ¬separates character := by
        simp only [joins, Bool.and_eq_true, Bool.not_eq_true'] at joined
        simp [joined.1]
      cases rest with
      | nil =>
          have joined : joins character = true := by simpa using ends
          have notDot : '.' ≠ character := by
            rintro rfl
            cases joined
          exact ⟨[], [character], .nil, by simpa using notDot,
            fun rest => lexFrom_of_not_separates (apart joined) rest⟩
      | cons next more =>
          rw [List.getLast?_cons_cons] at ends
          obtain ⟨front, last, isSpaced, undotted, lexed⟩ := ih spaced.2 ends
          by_cases joined : joins character = true
          · obtain ⟨front', last', isSpaced', undotted', same⟩ := isSpaced.extend joined undotted
            refine ⟨front', last', isSpaced', undotted', fun rest => ?_⟩
            rw [List.cons_append, lexFrom_of_not_separates (apart joined), lexed, same]
          · have isSign : character = ',' ∨ character = ' ' := by
              simpa [spaces, joined] using spaced.1
            refine ⟨.sign character :: front, last, .sign isSign isSpaced, undotted, fun rest => ?_⟩
            refine Eq.trans ?_ (congrArg (.sign character :: ·) (lexed rest))
            rcases isSign with rfl | rfl <;> rfl

/-- A text whose words are separated by commas and blanks calls nothing. -/
theorem IsPhrase.of_spaces {text : String} (spaced : text.toList.all spaces = true)
    (ends : ∃ last ∈ text.toList.getLast?, joins last = true) : IsPhrase text := by
  obtain ⟨front, last, isSpaced, undotted, lexed⟩ := exists_spaced spaced ends
  exact ⟨front, last, undotted, isSpaced.calm, isSpaced.quiet, lexed⟩

theorem tells_return {parcel : List Char} {result : String} (isResult : IsRun result) :
    Tells parcel s!"return {result};" [] :=
  tells_iff.mpr (by simp +decide [toString, isResult])

theorem tells_exceeds {parcel : List Char} {count type : String} (isCount : IsRun count)
    (isType : IsPhrase type) : Tells parcel s!"{count} > HDI_BUFF_MAX_SIZE / sizeof({type})" [] := by
  obtain ⟨front, last, undotted, calm, quiet, lexed⟩ := isType
  exact tells_iff.mpr (by simpa +decide [toString, isCount, lexed, undotted, quiet] using calm)

/-- A function gets no parcel. -/
theorem Tells.applied {parcel : List Char} {text function argument tail : String}
    (isFunction : IsPhrase function) (isArgument : IsRun argument)
    (other : argument.toList ≠ parcel) (told : Tells parcel tail [])
    (spelled : text.toList = function.toList ++ '(' :: (argument.toList ++ ')' :: tail.toList)) :
    Tells parcel text [] := by
  obtain ⟨front, last, undotted, calm, quiet, lexed⟩ := isFunction
  have whole : lexFrom false text.toList = front ++ .run last :: .sign '(' ::
      .run argument.toList :: .sign ')' :: lexFrom false tail.toList := by
    rw [spelled, lexed, lexFrom_opening, isArgument.lexFrom_append, lexFrom_closing, extend_sign,
      extend_sign]
  refine tells_iff.mpr ?_
  rw [whole, quiet, Callee.inRow_call undotted, if_neg other,
    Callee.inRow_run_sign isArgument.undotted (by decide), told.callees_eq, List.all_append, calm]
  simp only [List.all_cons, calms_run, told.calm]
  exact ⟨rfl, rfl⟩

/-- A queue is read by a function of its type. -/
theorem Tells.unmarshalled {parcel : List Char} {text type buffer : String}
    (isType : IsPhrase type) (isBuffer : IsRun buffer)
    (spelled : text.toList = type.toList ++ (Callee.readingQueue ++ '(' :: (buffer.toList ++
      [')', ';']))) : Tells parcel text (Callee.on parcel buffer [.queue]) := by
  obtain ⟨front, last, undotted, calm, quiet, lexed⟩ := isType
  have isFunction : IsRun "::UnMarshalling" := by decide
  have whole : lexFrom false text.toList = front ++ .run (last ++ Callee.readingQueue) ::
      .sign '(' :: .run buffer.toList :: .sign ')' :: [.sign ';'] := by
    have function := isFunction.lexFrom_append ('(' :: (buffer.toList ++ [')', ';']))
    rw [lexFrom_opening, isBuffer.lexFrom_append] at function
    rw [spelled, lexed]
    exact congrArg (fun behind => front ++ extend last behind) function
  have isQueue : Callee.ofFunction? (last ++ Callee.readingQueue) = some .queue :=
    if_pos (.inr (List.suffix_append _ _))
  have isUndotted : '.' ∉ last ++ Callee.readingQueue := by
    simp [undotted, Callee.readingQueue]
  refine tells_iff.mpr ?_
  rw [whole, quiet, Callee.inRow_call isUndotted, isQueue,
    Callee.inRow_run_sign isBuffer.undotted (by decide), List.all_append, calm]
  refine ⟨rfl, ?_⟩
  rw [Callee.on]
  exact List.append_nil _

theorem mem_of_mem_intercalate {separator : String} {texts : List String} {character : Char}
    (inside : character ∈ (String.intercalate separator texts).toList) :
    character ∈ separator.toList ∨ ∃ text ∈ texts, character ∈ text.toList := by
  induction texts with
  | nil => simp at inside
  | cons text rest ih =>
      cases rest with
      | nil => exact .inr ⟨text, List.mem_cons_self, by simpa using inside⟩
      | cons next more =>
          rw [String.intercalate_cons_cons, String.toList_append, String.toList_append,
            List.mem_append, List.mem_append] at inside
          rcases inside with (first | between) | later
          · exact .inr ⟨text, List.mem_cons_self, first⟩
          · exact .inl between
          · refine (ih later).imp_right ?_
            rintro ⟨other, listed, within⟩
            exact ⟨other, List.mem_cons_of_mem _ listed, within⟩

theorem tame_intercalate {separator : String} (isTame : Tame separator) {texts : List String}
    (each : ∀ text ∈ texts, Tame text) : Tame (String.intercalate separator texts) := by
  apply List.all_eq_true.mpr
  intro character inside
  rcases mem_of_mem_intercalate inside with between | ⟨text, listed, within⟩
  · exact List.all_eq_true.mp isTame character between
  · exact List.all_eq_true.mp (each text listed) character within

/-- Arguments that are separated by commas. -/
theorem tells_arguments {parcel : List Char} {arguments : List String}
    (each : ∀ argument ∈ arguments, Tells parcel argument []) :
    Tells parcel (String.intercalate ", " arguments) [] := by
  induction arguments with
  | nil => exact tells_empty
  | cons argument rest ih =>
      have others := ih fun other listed => each other (List.mem_cons_of_mem _ listed)
      cases rest with
      | nil =>
          rw [show String.intercalate ", " [argument] = argument by simp]
          exact each argument List.mem_cons_self
      | cons next more =>
          have spaced : Tells parcel (" " ++ String.intercalate ", " (next :: more)) [] :=
            .join ' ' tells_empty others (by simp) rfl
          exact .join ',' (each argument List.mem_cons_self) spaced
            (by simp [String.toList_intercalate]) rfl

/-- A condition that starts with a sign is no variable. -/
theorem not_skips_of_sign {skip : Option (List Char)} {condition : String} {sign : Char}
    (isSign : separates sign = true) (first : condition.toList.head? = some sign) :
    ¬Skips skip condition := by
  obtain ⟨rest, spelled⟩ := List.head?_eq_some_iff.mp first
  rintro ⟨flag, -, starts⟩
  rw [spelled, lexFrom_of_separates isSign, List.cons_append] at starts
  have same := (List.cons_prefix_cons.mp starts).1
  cases same

/-- A sign that ends a run of characters and is not the end of a condition. -/
def leadsOn (sign : Char) : Bool := separates sign && sign != ')'

/-- A condition that goes on behind its first run is no variable. -/
theorem not_skips_of_run {skip : Option (List Char)} {condition : String} {run : List Char}
    {sign : Char} {rest : List Char} (nonempty : run ≠ [])
    (unbroken : ∀ character ∈ run, ¬separates character)
    (spelled : condition.toList = run ++ sign :: rest)
    (isSign : leadsOn sign = true) : ¬Skips skip condition := by
  have isSign : separates sign = true ∧ sign ≠ ')' := by simpa [leadsOn] using isSign
  rintro ⟨flag, -, starts⟩
  rw [spelled, lexFrom_append_of_unbroken nonempty unbroken, lexFrom_of_separates isSign.1,
    extend_sign, List.cons_append, List.cons_append] at starts
  have same := (List.cons_prefix_cons.mp (List.cons_prefix_cons.mp starts).2).1
  exact isSign.2 (CodeLexeme.sign.inj same).symm

theorem CodeLexeme.IsRun.not_skips {skip : Option (List Char)} {condition run : String}
    (isRun : IsRun run) (sign : Char) (starts : run.toList ++ [sign] <+: condition.toList)
    (isSign : leadsOn sign = true) : ¬Skips skip condition := by
  obtain ⟨rest, spelled⟩ := starts
  exact @not_skips_of_run skip condition run.toList sign rest isRun.1 isRun.unbroken
    (by simp [← spelled]) isSign

/-- A failed call is logged with its error code. -/
theorem Emits.reported {skip : Option (List Char)} {parcel : List Char}
    {condition result logged leave : String} (message : String) (unquoted : '"' ∉ message.toList)
    (oneLine : '\n' ∉ message.toList) (told : Tells parcel condition [])
    (unskipped : ¬Skips skip condition) (isResult : IsRun result) (leaves : Tells parcel leave [])
    (spelled : logged.toList =
      ("HDF_LOGE(\"" ++ message ++ "\", " ++ ("__func__, " ++ result) ++ ");").toList) :
    Emits skip parcel (Code.branch condition [logged, leave]) [] := by
  have arguments : Tells parcel ("__func__, " ++ result) [] :=
    tells_iff.mpr (by simp +decide [isResult])
  have first : Emits skip parcel (Code.line logged) [] := by
    rw [String.toList_injective spelled]
    exact Emits.logged unquoted oneLine arguments
  exact .braced (.if told unskipped) (first.append (.line leaves))

end Phrases

section Units

variable {context : EmitContext}

theorem CodeLexeme.isRun_append {first second : String} (isWord : Text.OnlyWord first.toList)
    (isRun : IsRun second) : IsRun (first ++ second) := by
  refine ⟨by rw [String.toList_append]; exact List.append_ne_nil_of_right_ne_nil _ isRun.1, ?_⟩
  rw [String.toList_append, List.all_append, isRun.2, Bool.and_true, List.all_eq_true]
  exact fun character inside => joins_of_isWordChar (isWord character inside)

/-- The names that the code of a unit is made of are words. -/
structure EmitContext.Spelled (context : EmitContext) : Prop where
  program : context.program.Spelled
  named : Text.IsWord context.name

/-- The name of a method and those of its parameters are words. -/
structure Method.Spelled (method : Method) : Prop where
  named : Text.IsWord method.name
  parameters : ∀ parameter ∈ method.parameters, Text.IsWord parameter.name

/-- The name of a struct and those of its members are words. -/
structure RecordType.Spelled (record : RecordType) : Prop where
  named : Text.IsWord record.name
  members : ∀ member ∈ record.members, Text.IsWord member.name

namespace EmitContext.Spelled

variable (spelled : context.Spelled)

include spelled

theorem isWord_base : Text.IsWord context.base := Text.isWord_baseName spelled.named

theorem onlyWord_localPrefix : Text.OnlyWord context.localPrefix.toList :=
  Text.onlyWord_lowerCamel spelled.isWord_base.2

theorem isRun_local {suffix : String} (isRun : IsRun suffix) :
    IsRun (context.localPrefix ++ suffix) :=
  isRun_append spelled.onlyWord_localPrefix isRun

theorem isParcel_data : Callee.IsParcel (context.localPrefix ++ "Data").toList := by
  refine ⟨?_, .inl (by simp)⟩
  rw [String.toList_append]
  exact spelled.onlyWord_localPrefix.append (List.all_eq_true.mp rfl)

theorem isParcel_reply : Callee.IsParcel (context.localPrefix ++ "Reply").toList := by
  refine ⟨?_, .inr (by simp)⟩
  rw [String.toList_append]
  exact spelled.onlyWord_localPrefix.append (List.all_eq_true.mp rfl)

theorem isRun_commandName {method : Method} (isMethod : method.Spelled) :
    IsRun (context.commandName method) := by
  have isRun : IsRun ("_" ++ Text.upperSnake method.name) := by
    refine ⟨by simp, ?_⟩
    rw [String.toList_append, List.all_append, Bool.and_eq_true]
    exact ⟨rfl, List.all_eq_true.mpr fun character inside =>
      joins_of_isWordChar (Text.onlyWord_upperSnake isMethod.named.2 character inside)⟩
  rw [EmitContext.commandName, String.append_assoc, String.append_assoc]
  exact .append (by decide) (isRun_append (Text.onlyWord_upperSnake spelled.isWord_base.2) isRun)

end EmitContext.Spelled

/-- The two parcels of a function have names of their own. -/
theorem EmitContext.data_ne_reply (context : EmitContext) :
    (context.localPrefix ++ "Data").toList ≠ (context.localPrefix ++ "Reply").toList := by
  intro same
  have last := congrArg List.getLast? same
  simp at last

/-- The parcels of a function do not get in each other's way. -/
theorem calls_of_parcels {context : EmitContext} {skip : Option String} {signature : List String}
    {body : Code} {request reply : List WireCall} (spelled : context.Spelled)
    (tame : ∀ text ∈ signature, Tame text)
    (emits : ∀ parcel, Callee.IsParcel parcel → Emits (skip.map String.toList) parcel body
      (Callee.on parcel (context.localPrefix ++ "Data") request ++
        Callee.on parcel (context.localPrefix ++ "Reply") reply)) :
    wireCalls skip (context.localPrefix ++ "Data") (Code.text (Code.function signature body)) =
        request ∧
      wireCalls skip (context.localPrefix ++ "Reply") (Code.text (Code.function signature body)) =
        reply := by
  have apart := context.data_ne_reply
  have onData := emits _ spelled.isParcel_data
  have onReply := emits _ spelled.isParcel_reply
  rw [Callee.on_self, Callee.on_other apart.symm, List.append_nil] at onData
  rw [Callee.on_self, Callee.on_other apart, List.nil_append] at onReply
  exact ⟨wireCalls_function tame onData, wireCalls_function tame onReply⟩

theorem mem_of_mem_inParameters {method : Method} {parameter : Parameter}
    (listed : parameter ∈ method.inParameters) : parameter ∈ method.parameters :=
  (List.mem_filter.mp listed).1

theorem mem_of_mem_outParameters {method : Method} {parameter : Parameter}
    (listed : parameter ∈ method.outParameters) : parameter ∈ method.parameters :=
  (List.mem_filter.mp listed).1

theorem mem_of_mem_capacityParameters {method : Method} {parameter : Parameter}
    {types : TypeArena} (listed : parameter ∈ types.capacityParameters method) : parameter ∈ method.parameters :=
  mem_of_mem_outParameters (List.mem_filter.mp listed).1

end Units

end DriverIdl
