import DriverIdl.Proofs.Text.Words

/-!
# What a naming convention keeps of a name

`UPPER_SNAKE` keeps the words of a name and loses their case; where a word ends is seen by an
underscore or by a hump.  `lowerCamel` drops the underscores and keeps, besides the characters, which
of them are capitals.  So two names become one in a convention exactly if they agree in what it
keeps.
-/

namespace DriverIdl.Text

section Characters

variable {character : Char}

/-- The laws of the tests and of the cases of a letter: one table decides them all. -/
theorem case_laws (isWord : isWordChar character = true) :
    isUppercase character = character.isUpper ∧ isLowercase character = character.isLower ∧
      character.toLower.toUpper = character.toUpper ∧
      (character ≠ '_' → character.toUpper ≠ '_') ∧
      (character.isUpper = false → character.toLower = character) :=
  forall_isWordChar (fun letter => isUppercase letter = letter.isUpper ∧
      isLowercase letter = letter.isLower ∧ letter.toLower.toUpper = letter.toUpper ∧
      (letter ≠ '_' → letter.toUpper ≠ '_') ∧ (letter.isUpper = false → letter.toLower = letter))
    (by decide +kernel) isWord

theorem isUppercase_eq (isWord : isWordChar character = true) :
    isUppercase character = character.isUpper :=
  (case_laws isWord).1

theorem isLowercase_eq (isWord : isWordChar character = true) :
    isLowercase character = character.isLower :=
  (case_laws isWord).2.1

theorem toUpper_toLower (isWord : isWordChar character = true) :
    character.toLower.toUpper = character.toUpper :=
  (case_laws isWord).2.2.1

theorem toUpper_ne_underscore (isWord : isWordChar character = true) (differs : character ≠ '_') :
    character.toUpper ≠ '_' :=
  (case_laws isWord).2.2.2.1 differs

end Characters

section Snake

/-- Whether a word starts at a character that stands between two others: at a capital behind
anything but a capital, and at the last capital of a run in front of a small letter. -/
def startsHump (before character : Char) (behind : Option Char) : Bool :=
  character.isUpper && (!before.isUpper || behind.any Char.isLower)

/-- Whether a word starts at the head of a text behind a character. -/
def humpBehind (before : Char) (text : List Char) : Bool :=
  text.head?.any fun character => startsHump before character text.tail.head?

/-- The words of a name: it is cut at underscores and in front of humps. -/
def words : List Char → List (List Char)
  | [] => [[]]
  | character :: rest =>
    if character = '_' then [] :: words rest
    else if humpBehind character rest then [character] :: words rest
    else (words rest).modifyHead (character :: ·)

/-- Names that consist of the same words, whatever their case. -/
def SameWords (first second : String) : Prop :=
  (words first.toList).map (List.map Char.toUpper) =
    (words second.toList).map (List.map Char.toUpper)

instance (first second : String) : Decidable (SameWords first second) :=
  inferInstanceAs (Decidable (_ = _))

theorem words_ne_nil (text : List Char) : words text ≠ [] := by
  induction text with
  | nil => simp [words]
  | cons character rest ih =>
      rw [words]
      split
      · simp
      · split <;> simp [ih]

/-- Words are made of the characters of a name but its underscores. -/
theorem mem_of_mem_words {text word : List Char} {character : Char} (listed : word ∈ words text)
    (inside : character ∈ word) : character ∈ text ∧ character ≠ '_' := by
  fun_induction words text generalizing word with
  | case1 => simp_all
  | case2 rest ih =>
      rcases List.mem_cons.mp listed with rfl | later
      · cases inside
      · exact (ih later inside).imp_left (List.mem_cons_of_mem _)
  | case3 first rest differs hump ih =>
      rcases List.mem_cons.mp listed with rfl | later
      · obtain rfl := List.mem_singleton.mp inside
        exact ⟨List.mem_cons_self, differs⟩
      · exact (ih later inside).imp_left (List.mem_cons_of_mem _)
  | case4 first rest differs hump ih =>
      obtain ⟨head, others, split⟩ := List.exists_cons_of_ne_nil (words_ne_nil rest)
      rw [split] at listed ih
      rcases List.mem_cons.mp listed with rfl | later
      · rcases List.mem_cons.mp inside with rfl | within
        · exact ⟨List.mem_cons_self, differs⟩
        · exact (ih List.mem_cons_self within).imp_left (List.mem_cons_of_mem _)
      · exact (ih (List.mem_cons_of_mem _ later) inside).imp_left (List.mem_cons_of_mem _)

theorem words_undivided {text : List Char} (isWord : OnlyWord text) :
    ∀ word ∈ (words text).map (List.map Char.toUpper), '_' ∉ word := by
  intro upper listed isUnderscore
  obtain ⟨word, isPart, rfl⟩ := List.mem_map.mp listed
  obtain ⟨character, inside, changed⟩ := List.mem_map.mp isUnderscore
  obtain ⟨within, differs⟩ := mem_of_mem_words isPart inside
  exact toUpper_ne_underscore (isWord character within) differs changed

/-- The words of a name in upper case, with an underscore between each two. -/
def joinWords (text : List Char) : List Char :=
  ['_'].intercalate ((words text).map (List.map Char.toUpper))

theorem joinWords_underscore (rest : List Char) :
    joinWords ('_' :: rest) = '_' :: joinWords rest := by
  simp [joinWords, words, List.intercalate_cons_of_ne_nil, words_ne_nil]

theorem joinWords_cons {character : Char} (differs : character ≠ '_') (rest : List Char) :
    joinWords (character :: rest) =
      character.toUpper :: ((if humpBehind character rest then ['_'] else []) ++
        joinWords rest) := by
  rw [joinWords, words, if_neg differs]
  split
  · simp [joinWords, List.intercalate_cons_of_ne_nil, words_ne_nil]
  · obtain ⟨first, others, split⟩ := List.exists_cons_of_ne_nil (words_ne_nil rest)
    rw [joinWords, split, List.modifyHead_cons]
    cases others <;> simp [List.intercalate_cons_cons]

/-- What `snake_case` asks at a capital is whether a hump stands there. -/
theorem upperChars_snakeFrom_cons {before : Option Char} {character : Char} {rest : List Char}
    (isWord : OnlyWord (character :: rest)) (known : ∀ previous ∈ before, isWordChar previous = true) :
    (snakeFrom before (character :: rest)).flatMap upperChars =
      (if before.any fun previous => previous != '_' && humpBehind previous (character :: rest)
        then ['_'] else []) ++
      character.toUpper :: (snakeFrom (some character) rest).flatMap upperChars := by
  have first : isWordChar character = true := isWord character List.mem_cons_self
  have second : rest.head?.any isLowercase = rest.head?.any Char.isLower := by
    cases rest with
    | nil => rfl
    | cons other _ => exact isLowercase_eq (isWord other (by simp))
  rw [snakeFrom.eq_def]
  simp only [isUppercase_eq first]
  cases upper : character.isUpper with
  | false => cases before <;> simp [humpBehind, startsHump, upper, upperChars_eq first]
  | true =>
      have shown : upperChars character.toLower = [character.toUpper] := by
        rw [upperChars_eq (isWordChar_toLower first), toUpper_toLower first]
      cases before with
      | none => simp [lowerChars_eq first, shown]
      | some previous =>
          simp only [if_true, isUppercase_eq (known previous rfl), second, humpBehind, startsHump,
            upper, List.head?_cons, Option.any_some, List.tail_cons, Bool.true_and,
            List.flatMap_append, lowerChars_eq first, List.flatMap_singleton, shown]
          split <;> rfl

/-- The words of a name behind a character, which decides about an underscore in front of them. -/
theorem upperChars_snakeFrom {before : Option Char} {text : List Char} (isWord : OnlyWord text)
    (known : ∀ previous ∈ before, isWordChar previous = true) :
    (snakeFrom before text).flatMap upperChars =
      (if before.any fun previous => previous != '_' && humpBehind previous text then ['_']
        else []) ++ joinWords text := by
  induction text generalizing before with
  | nil => cases before <;> simp [snakeFrom, humpBehind, joinWords, words]
  | cons character rest ih =>
      have first : isWordChar character = true := isWord character List.mem_cons_self
      rw [upperChars_snakeFrom_cons isWord known, ih isWord.tail (by simpa using first)]
      congr 1
      by_cases isMark : character = '_'
      · subst isMark
        rw [joinWords_underscore]
        rfl
      · rw [joinWords_cons isMark]
        simp [isMark]

theorem toList_upperSnake {name : String} (isWord : OnlyWord name.toList) :
    (upperSnake name).toList = joinWords name.toList := by
  rw [upperSnake, uppercase, snakeCase, String.toList_ofList, String.toList_ofList,
    upperChars_snakeFrom isWord (by simp)]
  rfl

/-- Two names are one in `UPPER_SNAKE` exactly if they consist of the same words. -/
theorem upperSnake_eq_iff {first second : String} (isFirst : OnlyWord first.toList)
    (isSecond : OnlyWord second.toList) :
    upperSnake first = upperSnake second ↔ SameWords first second := by
  rw [← String.toList_inj, toList_upperSnake isFirst, toList_upperSnake isSecond]
  refine ⟨fun same => ?_, fun same => by rw [joinWords, joinWords, same]⟩
  have cut := congrArg (List.splitOn '_') same
  rwa [joinWords, joinWords, List.splitOn_intercalate _ (words_undivided isFirst)
      (by simp [words_ne_nil]),
    List.splitOn_intercalate _ (words_undivided isSecond) (by simp [words_ne_nil])] at cut

end Snake

section Camel

/-- The characters of a text behind `before` that `lowerCamel` shows, in lower case and each with
whether it is a capital there.  If a name has underscores, its capitals are the letters behind them;
else they are the capitals of the name. -/
def capitals (underscored : Bool) (before : Char) : List Char → List (Char × Bool)
  | [] => []
  | character :: rest =>
    if character = '_' then capitals underscored '_' rest
    else (character.toLower,
        character.isAlpha && if underscored then before == '_' else character.isUpper) ::
      capitals underscored character rest

/-- What `lowerCamel` keeps of a name: its characters without the underscores, and which of them but
the first are capitals. -/
def camelShape (name : List Char) : List (Char × Bool) :=
  (capitals (name.contains '_') '_' name).modifyHead fun shown => (shown.1, false)

/-- Names that agree in their characters, underscores and case left out, and in the capitals behind
the first character. -/
def SameCapitals (first second : String) : Prop :=
  camelShape first.toList = camelShape second.toList

instance (first second : String) : Decidable (SameCapitals first second) :=
  inferInstanceAs (Decidable (_ = _))

/-- The character that is told by its lower case and whether it is a capital. -/
def shownChar (shown : Char × Bool) : Char := if shown.2 then shown.1.toUpper else shown.1

theorem capitalize_eq {text : List Char} {character : Char}
    (isWord : OnlyWord (character :: text)) :
    capitalize true (character :: text) = character.toUpper :: text.map Char.toLower := by
  rw [capitalize, upperChars_eq (isWord character List.mem_cons_self), if_pos rfl,
    lowerFrom_eq isWord.tail, List.singleton_append]

/-- A character is shown with the case it is given, and tells its lower case and whether it is a
capital. -/
theorem shownChar_laws {character : Char} (isWord : isWordChar character = true) :
    shownChar (character.toLower, character.isAlpha) = character.toUpper ∧
      shownChar (character.toLower, character.isAlpha && character.isUpper) = character ∧
      ∀ capital, ((shownChar (character.toLower, character.isAlpha && capital)).toLower,
        (shownChar (character.toLower, character.isAlpha && capital)).isUpper) =
          (character.toLower, character.isAlpha && capital) :=
  forall_isWordChar (fun letter => shownChar (letter.toLower, letter.isAlpha) = letter.toUpper ∧
      shownChar (letter.toLower, letter.isAlpha && letter.isUpper) = letter ∧
      ∀ capital, ((shownChar (letter.toLower, letter.isAlpha && capital)).toLower,
        (shownChar (letter.toLower, letter.isAlpha && capital)).isUpper) =
          (letter.toLower, letter.isAlpha && capital))
    (by decide +kernel) isWord

/-- In a name with underscores, what is left of the current piece is in lower case and every later
piece starts with a capital. -/
theorem map_capitals_underscored {text : List Char} (isWord : OnlyWord text) (before : Char) :
    (capitals true before text).map shownChar =
      if before = '_' then (pieces '_' text).flatMap (capitalize true)
      else (pieces '_' text).headI.map Char.toLower ++
        (pieces '_' text).tail.flatMap (capitalize true) := by
  induction text generalizing before with
  | nil => simp [capitals, pieces, capitalize]
  | cons character rest ih =>
      have first : isWordChar character = true := isWord character List.mem_cons_self
      have later := ih isWord.tail
      obtain ⟨piece, others, split⟩ := List.exists_cons_of_ne_nil (List.splitOn_ne_nil '_' rest)
      have isPiece : OnlyWord (character :: piece) := by
        intro other listed
        rcases List.mem_cons.mp listed with rfl | inside
        · exact first
        · exact isWord.tail other (mem_of_mem_pieces (split ▸ List.mem_cons_self) inside)
      rw [capitals, pieces, List.splitOn_cons_eq_if_modifyHead]
      by_cases isMark : character = '_'
      · subst isMark
        simp [later, pieces, capitalize]
      · simp only [if_neg isMark, List.map_cons, later, beq_iff_eq, pieces, split,
          List.modifyHead_cons, List.flatMap_cons, capitalize_eq isPiece, List.headI_cons,
          List.tail_cons, List.cons_append]
        by_cases starts : before = '_'
        · simp [starts, (shownChar_laws first).1]
        · simp [starts, shownChar]

theorem map_capitals_plain {text : List Char} (isWord : OnlyWord text) (plain : '_' ∉ text)
    (before : Char) : (capitals false before text).map shownChar = text := by
  induction text generalizing before with
  | nil => rfl
  | cons character rest ih =>
      obtain ⟨differs, later⟩ := not_or.mp (mt List.mem_cons.mpr plain)
      rw [capitals, if_neg (Ne.symm differs), List.map_cons, ih isWord.tail later]
      simpa using (shownChar_laws (isWord character List.mem_cons_self)).2.1

/-- The characters of a name before the first one is put into lower case. -/
theorem map_capitals {name : String} (isWord : OnlyWord name.toList) :
    (capitals (name.toList.contains '_') '_' name.toList).map shownChar =
      (if name.toList.contains '_' then pascalCase name else name).toList := by
  split
  · rename_i underscored
    simp only [underscored, map_capitals_underscored isWord, if_true, pascalCase,
      String.toList_ofList]
  · rename_i plain
    simp only [plain]
    exact map_capitals_plain isWord (by simpa using plain) '_'

theorem mem_capitals {underscored : Bool} {before : Char} {text : List Char} {shown : Char × Bool}
    (listed : shown ∈ capitals underscored before text) :
    ∃ character ∈ text, ∃ capital, shown = (character.toLower, character.isAlpha && capital) := by
  fun_induction capitals underscored before text with
  | case1 => cases listed
  | case2 before rest ih =>
      obtain ⟨character, inside, known⟩ := ih listed
      exact ⟨character, List.mem_cons_of_mem _ inside, known⟩
  | case3 before first rest differs ih =>
      rcases List.mem_cons.mp listed with rfl | later
      · exact ⟨first, List.mem_cons_self, _, rfl⟩
      · obtain ⟨character, inside, known⟩ := ih later
        exact ⟨character, List.mem_cons_of_mem _ inside, known⟩

theorem capitals_tell {underscored : Bool} {before : Char} {text : List Char} {shown : Char × Bool}
    (isWord : OnlyWord text) (listed : shown ∈ capitals underscored before text) :
    ((shownChar shown).toLower, (shownChar shown).isUpper) = shown := by
  obtain ⟨character, inside, capital, rfl⟩ := mem_capitals listed
  exact (shownChar_laws (isWord character inside)).2.2 capital

theorem toList_lowerCamel {name : String} (isWord : OnlyWord name.toList) :
    (lowerCamel name).toList = (camelShape name.toList).map shownChar := by
  have camel := map_capitals isWord
  have isCamel : OnlyWord (if name.toList.contains '_' then pascalCase name else name).toList := by
    split
    · exact onlyWord_pascalCase isWord
    · exact isWord
  rw [lowerCamel, camelShape]
  cases shape : capitals (name.toList.contains '_') '_' name.toList with
  | nil => simp_all
  | cons entry others =>
      have small : (shownChar entry).toLower = shownChar (entry.1, false) :=
        congrArg Prod.fst (capitals_tell isWord (shape ▸ List.mem_cons_self))
      rw [shape, List.map_cons] at camel
      rw [← camel] at isCamel ⊢
      simp only [String.toList_ofList, lowerChars_eq (isCamel _ List.mem_cons_self), small,
        List.singleton_append, List.modifyHead_cons, List.map_cons]

theorem map_shownChar_camelShape {name : List Char} (isWord : OnlyWord name) :
    ((camelShape name).map shownChar).map (fun letter => (letter.toLower, letter.isUpper)) =
      camelShape name := by
  have tells (shown) (listed : shown ∈ camelShape name) :
      ((shownChar shown).toLower, (shownChar shown).isUpper) = shown := by
    rw [camelShape] at listed
    cases shape : capitals (name.contains '_') '_' name with
    | nil =>
        rw [shape] at listed
        cases listed
    | cons entry others =>
        rw [shape, List.modifyHead_cons] at listed
        rcases List.mem_cons.mp listed with rfl | later
        · obtain ⟨character, inside, capital, rfl⟩ := mem_capitals (shape ▸ List.mem_cons_self)
          simpa using (shownChar_laws (isWord character inside)).2.2 false
        · exact capitals_tell isWord (shape ▸ List.mem_cons_of_mem _ later)
  rw [List.map_map]
  exact (List.map_congr_left tells).trans (List.map_id _)

/-- Two names are one in `lowerCamel` exactly if they agree in their capitals. -/
theorem lowerCamel_eq_iff {first second : String} (isFirst : OnlyWord first.toList)
    (isSecond : OnlyWord second.toList) :
    lowerCamel first = lowerCamel second ↔ SameCapitals first second := by
  rw [← String.toList_inj, toList_lowerCamel isFirst, toList_lowerCamel isSecond]
  refine ⟨fun same => ?_, fun same => by rw [same]⟩
  have read := congrArg (List.map fun letter => (letter.toLower, letter.isUpper)) same
  rwa [map_shownChar_camelShape isFirst, map_shownChar_camelShape isSecond] at read

end Camel

end DriverIdl.Text
