import DriverIdl.Proofs.Emit.CodeCalls

/-!
# Names that a text defines

Which types a generated file defines, taken from its text: the row where a definition starts has the
words of the language for it, then the name, and opens a block.  A license may hold anything, so what
counts stands behind it.
-/

namespace DriverIdl

open CodeLexeme

section Reading

/-- The words that a row starts with, up to a sign that is no blank. -/
def CodeLexeme.words : List CodeLexeme → List (List Char)
  | .run text :: rest => text :: words rest
  | .sign character :: rest => if character = ' ' then words rest else []
  | [] => []

namespace Language

/-- What stands in front of the name of a type where its definition starts. -/
def definers : Language → List (List (List Char))
  | .c => [[['e', 'n', 'u', 'm']], [['s', 't', 'r', 'u', 'c', 't']], [['u', 'n', 'i', 'o', 'n']]]
  | .cpp =>
    [[['e', 'n', 'u', 'm']], [['s', 't', 'r', 'u', 'c', 't']], [['u', 'n', 'i', 'o', 'n']],
      [['c', 'l', 'a', 's', 's']]]
  | .java =>
    [[['p', 'u', 'b', 'l', 'i', 'c'], ['e', 'n', 'u', 'm']],
      [['p', 'u', 'b', 'l', 'i', 'c'], ['s', 't', 'a', 't', 'i', 'c'], ['f', 'i', 'n', 'a', 'l'],
        ['c', 'l', 'a', 's', 's']],
      [['p', 'u', 'b', 'l', 'i', 'c'], ['i', 'n', 't', 'e', 'r', 'f', 'a', 'c', 'e']]]

/-- The name of the type whose definition starts with a row. -/
def definedName? (language : Language) (row : List CodeLexeme) : Option (List Char) :=
  if row.getLast? = some (.sign '\x7b') then
    language.definers.findSome? fun definer => ((words row).dropPrefix? definer).bind List.head?
  else none

/-- The names of the types whose definitions start in rows. -/
def definedNames (language : Language) (rows : List (List CodeLexeme)) : List (List Char) :=
  rows.filterMap language.definedName?

end Language

/-- The names of the types that a file of a unit defines. -/
def GeneratedFile.definedNames (file : GeneratedFile) (language : Language) (unit : CompiledUnit) :
    List (List Char) :=
  language.definedNames <|
    (rows file.contents.toList).drop (Code.rows (Code.license unit)).length

end Reading

variable {language : Language}

section Lines

theorem CodeLexeme.eq_nil_of_lexFrom {text : List Char} (nothing : lexFrom false text = []) :
    text = [] := by
  cases text with
  | nil => rfl
  | cons character rest =>
      rw [lexFrom, if_neg Bool.false_ne_true] at nothing
      split at nothing
      · cases nothing
      · rcases behind : lexFrom false rest with _ | ⟨run | sign, others⟩ <;> simp [behind] at nothing

theorem CodeLexeme.getLast?_extend (characters : List Char) (behind : List CodeLexeme) (sign : Char) :
    (extend characters behind).getLast? = some (.sign sign) ↔ behind.getLast? = some (.sign sign) := by
  rcases behind with _ | ⟨run | other, _ | ⟨next, others⟩⟩ <;> simp

/-- A block that opens at the end of the lexemes opens at the end of the text. -/
theorem CodeLexeme.getLast?_of_lexFrom {quoted : Bool} {text : List Char}
    (opens : (lexFrom quoted text).getLast? = some (.sign '\x7b')) :
    text.getLast? = some '\x7b' := by
  induction text generalizing quoted with
  | nil => cases opens
  | cons character rest ih =>
      have later {quoted : Bool} (last : (lexFrom quoted rest).getLast? = some (.sign '\x7b')) :
          (character :: rest).getLast? = some '\x7b' := by
        rw [List.getLast?_cons, ih last, Option.getD_some]
      have behindSign {quoted : Bool}
          (last : (.sign character :: lexFrom quoted rest).getLast? = some (.sign '\x7b')) :
          lexFrom quoted rest = [] ∧ character = '\x7b' ∨ (character :: rest).getLast? = some '\x7b' := by
        cases behind : lexFrom quoted rest with
        | nil => exact .inl ⟨rfl, by simpa [behind] using last⟩
        | cons next others =>
            rw [behind, List.getLast?_cons_cons, ← behind] at last
            exact .inr (later last)
      rw [lexFrom] at opens
      split at opens
      · split at opens
        · rename_i isQuote
          subst isQuote
          exact (behindSign opens).resolve_left (by simp)
        · exact later opens
      · split at opens
        · rcases behindSign opens with ⟨nothing, rfl⟩ | last
          · rw [eq_nil_of_lexFrom nothing]
            rfl
          · exact last
        · exact later ((getLast?_extend _ _ _).mp opens)

/-- The names of the types whose definitions start on lines. -/
def Language.definedOn (language : Language) (text : String) : List (List Char) :=
  language.definedNames (rows text.toList)

/-- A line that opens no block at its end. -/
def Unopened (text : String) : Prop :=
  '\n' ∉ text.toList ∧ text.toList.getLast? ≠ some '\x7b'

instance (text : String) : Decidable (Unopened text) := inferInstanceAs (Decidable (_ ∧ _))

theorem Unopened.of_append {front last : String} (oneLine : '\n' ∉ front.toList)
    (closes : Unopened last ∧ last ≠ "") : Unopened (front ++ last) := by
  obtain ⟨⟨isLast, closed⟩, notEmpty⟩ := closes
  refine ⟨by simp [oneLine, isLast], fun opens => ?_⟩
  cases ends : last.toList.getLast? with
  | none => exact notEmpty (String.toList_eq_nil_iff.mp (List.getLast?_eq_none_iff.mp ends))
  | some sign =>
      rw [String.toList_append, List.getLast?_append, ends, Option.some_or] at opens
      exact closed (ends.trans opens)

theorem CodeLexeme.Tame.unopened {text : String} (tame : Tame text) : Unopened text :=
  ⟨tame.not_mem rfl, fun last => tame.not_mem rfl (List.mem_of_getLast? last)⟩

/-- What a row tells is all that its line tells. -/
theorem definedOn_of_row {text : String} (oneLine : '\n' ∉ text.toList) :
    language.definedOn text = (language.definedName? (ofLine text.toList)).toList := by
  rw [Language.definedOn, rows_of_oneLine oneLine, Language.definedNames]
  cases empty : ofLine text.toList with
  | nil => rfl
  | cons lexeme others => cases told : language.definedName? (lexeme :: others) <;> simp [told]

theorem Unopened.definedOn {text : String} (unopened : Unopened text) :
    language.definedOn text = [] := by
  have closed : language.definedName? (ofLine text.toList) = none := by
    refine if_neg fun opens => unopened.2 ?_
    have last := getLast?_of_lexFrom opens
    obtain ⟨front, whole⟩ := List.dropWhile_suffix (l := text.toList) (· = ' ')
    rw [← whole, List.getLast?_append, last, Option.some_or]
  rw [definedOn_of_row unopened.1, closed, Option.toList_none]

/-- A row whose words start no definition. -/
theorem definedName?_eq_none {row : List CodeLexeme}
    (apart : ∀ definer ∈ language.definers, ¬definer <+: words row) :
    language.definedName? row = none := by
  rw [Language.definedName?]
  split
  · apply List.findSome?_eq_none_iff.mpr
    intro definer listed
    cases dropped : (words row).dropPrefix? definer with
    | none => rfl
    | some behind =>
        obtain ⟨front, whole, same⟩ := List.dropPrefix?_eq_some_iff.mp dropped
        refine absurd ?_ (apart definer listed)
        rw [whole, eq_of_beq same]
        exact List.prefix_append _ _
  · rfl

/-- A line whose first word starts no definition. -/
theorem definedOn_of_first {text first : String} {sign : Char} {rest : List Char}
    (isRun : IsRun first) (apart : separates sign = true) (oneLine : '\n' ∉ text.toList)
    (spelled : text.toList = first.toList ++ sign :: rest)
    (other : ∀ definer ∈ language.definers, definer.head? ∉ [none, some first.toList]) :
    language.definedOn text = [] := by
  have lexed : words (ofLine text.toList) =
      first.toList :: words (lexFrom false (sign :: rest)) := by
    rw [spelled, isRun.ofLine_append, isRun.lexFrom_append, lexFrom_of_separates apart]
    rfl
  rw [definedOn_of_row oneLine, definedName?_eq_none, Option.toList_none]
  intro definer listed starts
  have isOther := other definer listed
  rw [lexed] at starts
  cases definer with
  | nil => simp at isOther
  | cons word more => simp [(List.cons_prefix_cons.mp starts).1] at isOther

/-- A row with the words of a definition in front of a name. -/
theorem definedName?_eq_some {row : List CodeLexeme} {definer more : List (List Char)}
    {name : List Char} (opens : row.getLast? = some (.sign '\x7b'))
    (starts : words row = definer ++ name :: more) (listed : definer ∈ language.definers) :
    language.definedName? row = some name := by
  rw [Language.definedName?, if_pos opens, starts]
  cases language <;> simp only [Language.definers, List.mem_cons, List.not_mem_nil, or_false] at listed
  all_goals rcases listed with rfl | rfl | rfl | rfl <;> simp +decide [Language.definers, List.dropPrefix?]

/-- A line with the words of a definition in front of a name. -/
theorem definedOn_of_definition (definer more : List (List Char)) {text : String}
    {row : List CodeLexeme} {name : List Char} (oneLine : '\n' ∉ text.toList)
    (lexed : ofLine text.toList = row) (opens : row.getLast? = some (.sign '\x7b'))
    (starts : words row = definer ++ name :: more) (listed : definer ∈ language.definers) :
    language.definedOn text = [name] := by
  rw [definedOn_of_row oneLine, lexed, definedName?_eq_some opens starts listed, Option.toList_some]

end Lines

section Code

/-- The names of the types whose definitions start in a piece of code. -/
def Language.definedIn (language : Language) (code : Code) : List (List Char) :=
  language.definedNames (Code.rows code)

/-- What a file of a unit defines is what its code behind the license defines. -/
theorem GeneratedFile.definedNames_ofCode (name : String) (unit : CompiledUnit) (code : Code) :
    (GeneratedFile.ofCode name (Code.license unit ++ code)).definedNames language unit =
      language.definedIn code := by
  rw [definedNames, ofCode, Code.rows_text, Code.rows_append, List.drop_left, Language.definedIn]

namespace Language

@[simp] theorem definedIn_nil : language.definedIn [] = [] := rfl

@[simp] theorem definedIn_append (first second : Code) :
    language.definedIn (first ++ second) = language.definedIn first ++ language.definedIn second := by
  rw [definedIn, Code.rows_append, definedNames, List.filterMap_append]
  rfl

@[simp] theorem definedIn_line (text : String) :
    language.definedIn (Code.line text) = language.definedOn text := by
  rw [definedIn, Code.line, Code.rows, Code.rows, List.append_nil]
  rfl

@[simp] theorem definedIn_blank : language.definedIn Code.blank = [] := rfl

theorem definedIn_lines {texts : List String}
    (quiet : ∀ text ∈ texts, language.definedOn text = []) :
    language.definedIn (Code.lines texts) = [] := by
  induction texts with
  | nil => rfl
  | cons text rest ih =>
      have split : Code.lines (text :: rest) = Code.line text ++ Code.lines rest := rfl
      rw [split, definedIn_append, definedIn_line, quiet text (by simp),
        ih fun other listed => quiet other (by simp [listed]), List.append_nil]

@[simp] theorem definedIn_bracedWith (head : String) (body : Code) (mark : String) :
    language.definedIn (Code.bracedWith head body mark) =
      language.definedOn (head ++ " \x7b") ++ language.definedIn body ++
        language.definedOn ("\x7d" ++ mark) := by
  rw [Code.bracedWith, definedIn_append, definedIn_append]
  simp [definedIn, Code.rows, CodeStep.rows, definedOn]

theorem definedIn_flatten (pieces : List Code) :
    language.definedIn pieces.flatten = pieces.flatMap language.definedIn := by
  induction pieces with
  | nil => rfl
  | cons piece rest ih => rw [List.flatten_cons, definedIn_append, ih, List.flatMap_cons]

theorem definedIn_paragraphs (pieces : List Code) :
    language.definedIn (Code.paragraphs pieces) = pieces.flatMap language.definedIn := by
  induction pieces with
  | nil => rfl
  | cons piece rest ih =>
      rw [Code.paragraphs] at ih ⊢
      rw [List.flatMap_cons, definedIn_append, ih, List.flatMap_cons]
      split
      · rename_i empty
        rw [List.isEmpty_iff.mp empty]
      · rw [definedIn_append, definedIn_blank, List.append_nil]

/-- The row where a definition starts is all that matters where a block is empty otherwise. -/
theorem definedIn_bracedWith_of_quiet {head mark : String} {body : Code}
    (quiet : language.definedIn body = []) (closes : Unopened ("\x7d" ++ mark)) :
    language.definedIn (Code.bracedWith head body mark) = language.definedOn (head ++ " \x7b") := by
  rw [definedIn_bracedWith, quiet, closes.definedOn, List.append_nil, List.append_nil]

end Language

theorem Unopened.definedIn {text : String} (unopened : Unopened text) :
    language.definedIn (Code.line text) = [] := by
  rw [Language.definedIn_line, unopened.definedOn]

/-- Where a part of a piece of code starts a definition, the whole does. -/
theorem Language.definedIn_subset {part whole : Code} (inside : part <:+: whole) :
    language.definedIn part ⊆ language.definedIn whole := by
  obtain ⟨early, late, rfl⟩ := inside
  intro name listed
  simp [listed]

end Code

end DriverIdl
