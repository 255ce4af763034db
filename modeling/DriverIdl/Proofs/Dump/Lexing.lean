import DriverIdl.Proofs.Dump.Names
import DriverIdl.Proofs.Token.Lexing

/-!
# The words of a text

`Token.wordsOf` are the words of a text, comments included and places left out.  What stands behind a
word does not change it, as long as it does not go on with it: a text is taken to its words piece by
piece.
-/

namespace DriverIdl

/-- The words of a text, comments included. -/
def Token.wordsOf (source : List Char) : List Word := (scanFrom ⟨1, 1⟩ source).1.map word

namespace Lexeme

/-- What follows does not go on with a name or number that stands in front of it. -/
def Breaks (rest : List Char) : Prop := ∀ next ∈ rest.head?, continuesName next = false

theorem Breaks.cons {next : Char} {rest : List Char} (apart : continuesName next = false) :
    Breaks (next :: rest) := by simpa [Breaks] using apart

theorem takeWhile_eq_of_inside {test : Char → Bool} {more rest : List Char}
    (inside : ∀ character ∈ more, test character = true)
    (maximal : ∀ character ∈ rest.head?, test character = false) :
    (more ++ rest).takeWhile test = more ∧ (more ++ rest).dropWhile test = rest := by
  rw [List.takeWhile_append_of_pos inside, List.dropWhile_append_of_pos inside]
  cases rest with
  | nil => simp
  | cons next others => simp [maximal next rfl]

/-- The first end mark behind a body is the one that ends it. -/
theorem splitComment_append {body : List Char} (isFirst : ¬endMark <:+: body ++ ['*'])
    (rest : List Char) : splitComment (body ++ endMark ++ rest) = some (body ++ endMark, rest) := by
  induction body with
  | nil => rfl
  | cons character body ih =>
      have inner : ∀ others, character :: (body ++ ['*']) ≠ '*' :: '/' :: others := by
        rintro others same
        exact isFirst ⟨[], others, by simpa [endMark] using same.symm⟩
      have later := ih fun inside => isFirst ((endMark_infix_cons inner).mpr inside)
      rw [List.cons_append, List.cons_append, splitComment, later]
      · rfl
      · rintro others rfl same
        cases body with
        | nil => cases same
        | cons next body =>
            obtain ⟨rfl, -⟩ := List.cons.inj same
            exact inner (body ++ ['*']) rfl

/-- A lexeme is taken wherever it stands in front of what may follow it. -/
theorem take_of_spans {kind : TokenKind} {first : Char} {more rest : List Char}
    (spans : Spans kind (first :: more) rest) (known : kind ≠ .unknown) :
    take first (more ++ rest) = (kind, first :: more, rest) := by
  generalize whole : first :: more = text at spans
  cases spans with
  | name run starts =>
      subst whole
      have isName : startsName first = true := by
        have inName := run.inside first List.mem_cons_self
        by_contra other
        rw [continuesName_eq_false (by simpa using other) (starts first rfl)] at inName
        cases inName
      obtain ⟨taken, dropped⟩ := takeWhile_eq_of_inside
        (fun character inside => run.inside character (List.mem_cons_of_mem _ inside)) run.maximal
      rw [take, if_pos isName, taken, dropped]
  | number run starts =>
      subst whole
      have isDigit := starts first rfl
      have noName : startsName first ≠ true := by
        intro isName
        rw [(continuesName_of_startsName isName).2] at isDigit
        cases isDigit
      obtain ⟨taken, dropped⟩ := takeWhile_eq_of_inside
        (fun character inside => run.inside character (List.mem_cons_of_mem _ inside)) run.maximal
      rw [take, if_neg noName, if_pos isDigit, taken, dropped]
  | @lineComment body _ inside ends =>
      obtain ⟨rfl, rfl⟩ := List.cons.inj whole
      have plain : ∀ character ∈ '/' :: body, (character != '\n') = true := by
        rintro character listed
        rw [bne_iff_ne]
        rintro rfl
        rcases List.mem_cons.mp listed with other | inBody
        · cases other
        · exact inside inBody
      obtain ⟨taken, dropped⟩ := takeWhile_eq_of_inside plain fun character isHead => by
        rw [ends character isHead]
        rfl
      rw [take, if_neg (by decide), if_neg (by decide), if_pos (by simp), taken, dropped]
  | @blockComment body _ isFirst =>
      obtain ⟨rfl, rfl⟩ := List.cons.inj whole
      rw [take, if_neg (by decide), if_neg (by decide), if_neg (by simp), if_pos (by simp),
        List.cons_append, List.drop_succ_cons, List.drop_zero, splitComment_append isFirst]
  | openComment => exact absurd rfl known
  | unknown => exact absurd rfl known
  | delimiter isKind =>
      obtain ⟨rfl, rfl⟩ := List.cons.inj whole
      have apart := Spans.continuesName_of_delimiter isKind
      have noName : startsName first ≠ true := by
        intro isName
        rw [(continuesName_of_startsName isName).1] at apart
        cases apart
      have noDigit : first.isDigit ≠ true := by
        intro isDigit
        simp [continuesName, Char.isAlphanum, isDigit] at apart
      have noSlash : first ≠ '/' := by
        rintro rfl
        cases isKind
      rw [take, if_neg noName, if_neg noDigit, if_neg (by simp [noSlash]), if_neg (by simp [noSlash]),
        isKind]
      rfl

end Lexeme

namespace Token

open Lexeme

theorem words_scanFrom (place : Position) (source : List Char) :
    (scanFrom place source).1.map word =
      match source.dropWhile Text.isBlank with
      | [] => []
      | first :: rest =>
        ((take first rest).1, String.ofList (take first rest).2.1) ::
          (scanFrom ((place.afterAll (source.takeWhile Text.isBlank)).afterAll
            (take first rest).2.1) (take first rest).2.2).1.map word := by
  rw [scanFrom]
  split <;> rename_i found <;> rw [found]
  · rfl
  · rfl

/-- Words do not depend on the place of the text. -/
theorem map_word_scanFrom (place : Position) (source : List Char) :
    (scanFrom place source).1.map word = wordsOf source := by
  suffices same : ∀ other, (scanFrom place source).1.map word = (scanFrom other source).1.map word
    from same _
  fun_induction scanFrom place source with
  | case1 place source blank =>
      intro other
      rw [words_scanFrom, blank]
      rfl
  | case2 place source first rest found start lexeme tokens finish scanned ih =>
      intro other
      rw [words_scanFrom other, found, List.map_cons]
      rw [scanned] at ih
      exact congrArg _ (ih _)

/-- What is no blank starts a word. -/
theorem wordsOf_cons {first : Char} {rest : List Char} (notBlank : Text.isBlank first = false) :
    wordsOf (first :: rest) =
      ((take first rest).1, String.ofList (take first rest).2.1) ::
        wordsOf (take first rest).2.2 := by
  have starts : (first :: rest).dropWhile Text.isBlank = first :: rest := by simp [notBlank]
  rw [wordsOf, words_scanFrom, starts]
  simp only [map_word_scanFrom]

@[simp] theorem wordsOf_nil : wordsOf [] = [] := by
  rw [wordsOf, words_scanFrom]
  rfl

theorem wordsOf_blank {first : Char} {rest : List Char} (blank : Text.isBlank first = true) :
    wordsOf (first :: rest) = wordsOf rest := by
  have skipped : (first :: rest).dropWhile Text.isBlank = rest.dropWhile Text.isBlank := by
    simp [blank]
  rw [wordsOf, wordsOf, words_scanFrom, words_scanFrom, skipped]
  simp only [map_word_scanFrom]

@[simp] theorem wordsOf_space (rest : List Char) : wordsOf (' ' :: rest) = wordsOf rest :=
  wordsOf_blank rfl

@[simp] theorem wordsOf_lineFeed (rest : List Char) : wordsOf ('\n' :: rest) = wordsOf rest :=
  wordsOf_blank rfl

/-- A lexeme that does not start with a blank is a word of its own. -/
theorem wordsOf_of_spans {kind : TokenKind} {text : String} {rest : List Char}
    (spans : Spans kind text.toList rest) (known : kind ≠ .unknown)
    (notBlank : ∀ first ∈ text.toList.head?, Text.isBlank first = false) :
    wordsOf (text.toList ++ rest) = (kind, text) :: wordsOf rest := by
  cases letters : text.toList with
  | nil => exact absurd letters spans.nonempty
  | cons first more =>
      rw [letters] at spans
      rw [List.cons_append, wordsOf_cons (notBlank first (by rw [letters]; rfl)),
        take_of_spans spans known, ← letters, String.ofList_toList]

theorem isBlank_of_continuesName {character : Char} (inName : continuesName character = true) :
    Text.isBlank character = false := by
  by_contra blank
  rw [Text.continuesName_of_isBlank (by simpa using blank)] at inName
  cases inName

theorem wordsOf_delimiter {first : Char} {kind : TokenKind} (rest : List Char)
    (isKind : TokenKind.delimiter? first = some kind) :
    wordsOf (first :: rest) = (kind, String.singleton first) :: wordsOf rest := by
  have same : (String.singleton first).toList = [first] := String.toList_singleton first
  have spans : Spans kind (String.singleton first).toList rest := same ▸ .delimiter isKind
  rw [← List.singleton_append, ← same]
  unfold TokenKind.delimiter? at isKind
  refine wordsOf_of_spans spans ?_ ?_
  · rintro rfl
    split at isKind <;> cases isKind
  · rw [same]
    rintro _ ⟨⟩
    split at isKind <;> first | rfl | cases isKind

/-- An identifier or a reserved word. -/
theorem wordsOf_identifier {name : String} {rest : List Char}
    (identifier : Package.isIdentifier name.toList = true) (breaks : Breaks rest) :
    wordsOf (name.toList ++ rest) =
      ((TokenKind.keyword? name).getD .identifier, name) :: wordsOf rest := by
  have run : IsRun continuesName name.toList rest ∧
      ∀ first ∈ name.toList.head?, first.isDigit = false := by
    cases letters : name.toList with
    | nil => simp [letters, Package.isIdentifier] at identifier
    | cons first more =>
        rw [letters, Package.isIdentifier, Bool.and_eq_true, List.all_eq_true] at identifier
        obtain ⟨continues, notDigit⟩ := continuesName_of_startsName identifier.1
        refine ⟨⟨by simp, fun character listed => ?_, breaks⟩, by simpa using notDigit⟩
        rcases List.mem_cons.mp listed with rfl | later
        · exact continues
        · exact identifier.2 character later
  have spans := Spans.name run.1 run.2
  rw [String.ofList_toList] at spans
  refine wordsOf_of_spans spans ?_ fun first isHead =>
    isBlank_of_continuesName (run.1.inside first (List.mem_of_mem_head? isHead))
  unfold TokenKind.keyword?
  split <;> decide

theorem wordsOf_name {name : String} {rest : List Char} (isName : Text.IsName name)
    (breaks : Breaks rest) : wordsOf (name.toList ++ rest) = (.identifier, name) :: wordsOf rest := by
  rw [wordsOf_identifier isName.identifier breaks, isName.unreserved, Option.getD_none]

theorem isIdentifier_of_keyword? {word : String} {kind : TokenKind}
    (reserved : TokenKind.keyword? word = some kind) : Package.isIdentifier word.toList = true := by
  unfold TokenKind.keyword? at reserved
  split at reserved <;> first | decide | cases reserved

theorem wordsOf_keyword {word : String} {kind : TokenKind} {rest : List Char}
    (reserved : TokenKind.keyword? word = some kind) (breaks : Breaks rest) :
    wordsOf (word.toList ++ rest) = (kind, word) :: wordsOf rest := by
  rw [wordsOf_identifier (isIdentifier_of_keyword? reserved) breaks, reserved, Option.getD_some]

/-- A reserved word with a blank behind it. -/
theorem wordsOf_keyword_space {word : String} {kind : TokenKind}
    (reserved : TokenKind.keyword? word = some kind) (rest : List Char) :
    wordsOf ((word ++ " ").toList ++ rest) = (kind, word) :: wordsOf rest := by
  rw [String.toList_append, List.append_assoc]
  exact (wordsOf_keyword reserved (.cons rfl)).trans (congrArg _ (wordsOf_space rest))

theorem wordsOf_number {rest : List Char} (number : Nat) (breaks : Breaks rest) :
    wordsOf ((toString number).toList ++ rest) = (.number, toString number) :: wordsOf rest := by
  have digits : ∀ digit ∈ (toString number).toList, digit.isDigit = true := by
    rw [Nat.toString_eq_ofList_toDigits, String.toList_ofList]
    exact fun digit listed => Nat.isDigit_of_mem_toDigits (by decide) (by decide) listed
  have alphanumeric : ∀ digit ∈ (toString number).toList, digit.isAlphanum = true := by
    intro digit listed
    simp [Char.isAlphanum, digits digit listed]
  have ends : ∀ next ∈ rest.head?, next.isAlphanum = false := by
    intro next isHead
    have apart := breaks next isHead
    simp only [continuesName, Bool.or_eq_false_iff] at apart
    exact apart.1
  have nonempty : (toString number).toList ≠ [] := by
    rw [Nat.toString_eq_ofList_toDigits, String.toList_ofList]
    simp
  have spans : Spans .number (toString number).toList rest :=
    .number ⟨nonempty, alphanumeric, ends⟩ fun first isHead =>
      digits first (List.mem_of_mem_head? isHead)
  exact wordsOf_of_spans spans (by decide) fun first isHead => isBlank_of_continuesName
    (continuesName_of_isAlphanum (alphanumeric first (List.mem_of_mem_head? isHead)))

theorem wordsOf_lineComment {text : String} {rest : List Char} (body : List Char)
    (opens : text.toList = '/' :: '/' :: body) (inside : '\n' ∉ body)
    (ends : ∀ next ∈ rest.head?, next = '\n') :
    wordsOf (text.toList ++ rest) = (.lineComment, text) :: wordsOf rest := by
  have spans : Spans .lineComment text.toList rest := opens ▸ .lineComment inside ends
  exact wordsOf_of_spans spans (by decide) (by simp [opens]; decide)

theorem wordsOf_blockComment {text : String} {body : List Char} (rest : List Char)
    (opens : text.toList = '/' :: '*' :: (body ++ endMark)) (isFirst : ¬endMark <:+: body ++ ['*']) :
    wordsOf (text.toList ++ rest) = (.blockComment, text) :: wordsOf rest := by
  have spans : Spans .blockComment text.toList rest := opens ▸ .blockComment isFirst
  exact wordsOf_of_spans spans (by decide) (by simp [opens]; decide)

end Token

end DriverIdl
