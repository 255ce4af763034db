import DriverIdl.Text.Casing
import DriverIdl.Proofs.Parsing.Names

/-!
# Words in other conventions

A word stays one in every convention that generated code spells it in: the case maps take characters
of words to characters of words.
-/

namespace DriverIdl.Text

/-- Only characters of words. -/
def OnlyWord (text : List Char) : Prop := ∀ character ∈ text, isWordChar character = true

theorem OnlyWord.tail {character : Char} {rest : List Char} (isWord : OnlyWord (character :: rest)) :
    OnlyWord rest :=
  fun other listed => isWord other (List.mem_cons_of_mem _ listed)

theorem OnlyWord.append {first second : List Char} (isFirst : OnlyWord first)
    (isSecond : OnlyWord second) : OnlyWord (first ++ second) :=
  fun character inside => (List.mem_append.mp inside).elim (isFirst character) (isSecond character)

theorem OnlyWord.flatMap {α : Type} {items : List α} {text : α → List Char}
    (each : ∀ item ∈ items, OnlyWord (text item)) : OnlyWord (items.flatMap text) := by
  intro character inside
  obtain ⟨item, listed, within⟩ := List.mem_flatMap.mp inside
  exact each item listed character within

theorem toNat_lt_of_isWordChar {character : Char} (isWord : isWordChar character = true) :
    character.toNat < 128 := by
  have bounded {greatest : Char} (within : character.val ≤ greatest.val)
      (ascii : greatest.toNat < 128) : character.toNat < 128 :=
    Nat.lt_of_le_of_lt (UInt32.le_iff_toNat_le.mp within) ascii
  rcases (Bool.or_eq_true _ _).mp isWord with alphanum | underscore
  · rcases (Bool.or_eq_true _ _).mp alphanum with letter | digit
    · rcases (Bool.or_eq_true _ _).mp letter with upper | lower
      · exact @bounded 'Z' (of_decide_eq_true upper).2 (by decide)
      · exact @bounded 'z' (of_decide_eq_true ((Bool.and_eq_true _ _).mp lower).2) (by decide)
    · exact @bounded '9' (of_decide_eq_true ((Bool.and_eq_true _ _).mp digit).2) (by decide)
  · rw [beq_iff_eq.mp underscore]
    decide

/-- What holds of the characters of words is seen by looking through them. -/
theorem forall_isWordChar (holds : Char → Prop)
    (table : ∀ code < 128, isWordChar (Char.ofNat code) = true → holds (Char.ofNat code))
    {character : Char} (isWord : isWordChar character = true) : holds character := by
  have same := table character.toNat (toNat_lt_of_isWordChar isWord)
  rw [Char.ofNat_toNat] at same
  exact same isWord

theorem isWordChar_cases {character : Char} (isWord : isWordChar character = true) :
    isWordChar character.toUpper = true ∧ isWordChar character.toLower = true :=
  forall_isWordChar (fun letter => isWordChar letter.toUpper = true ∧
    isWordChar letter.toLower = true) (by decide +kernel) isWord

theorem isWordChar_toUpper {character : Char} (isWord : isWordChar character = true) :
    isWordChar character.toUpper = true :=
  (isWordChar_cases isWord).1

theorem isWordChar_toLower {character : Char} (isWord : isWordChar character = true) :
    isWordChar character.toLower = true :=
  (isWordChar_cases isWord).2

theorem lowerChars_eq {character : Char} (isWord : isWordChar character = true) :
    lowerChars character = [character.toLower] := by
  rw [lowerChars, if_pos (toNat_lt_of_isWordChar isWord)]

theorem upperChars_eq {character : Char} (isWord : isWordChar character = true) :
    upperChars character = [character.toUpper] := by
  rw [upperChars, if_pos (toNat_lt_of_isWordChar isWord)]

theorem onlyWord_upperChars {character : Char} (isWord : isWordChar character = true) :
    OnlyWord (upperChars character) := by
  rw [upperChars_eq isWord]
  intro upper inside
  rw [List.mem_singleton.mp inside]
  exact isWordChar_toUpper isWord

theorem onlyWord_lowerChars {character : Char} (isWord : isWordChar character = true) :
    OnlyWord (lowerChars character) := by
  rw [lowerChars_eq isWord]
  intro lower inside
  rw [List.mem_singleton.mp inside]
  exact isWordChar_toLower isWord

theorem lowerFrom_eq {text : List Char} (isWord : OnlyWord text) (before : List Char) :
    lowerFrom before text = text.map Char.toLower := by
  induction text generalizing before with
  | nil => rfl
  | cons character rest ih =>
      have first : isWordChar character = true := isWord character List.mem_cons_self
      have notSigma : ¬(character.toNat == 0x3a3) = true := by
        have ascii := toNat_lt_of_isWordChar first
        simp only [beq_iff_eq]
        omega
      rw [lowerFrom]
      simp only [if_neg notSigma, lowerChars_eq first, ih isWord.tail, List.map_cons,
        List.singleton_append]

theorem onlyWord_lowerFrom {text : List Char} (isWord : OnlyWord text) (before : List Char) :
    OnlyWord (lowerFrom before text) := by
  rw [lowerFrom_eq isWord]
  intro lower inside
  obtain ⟨character, listed, rfl⟩ := List.mem_map.mp inside
  exact isWordChar_toLower (isWord character listed)

theorem onlyWord_capitalize {text : List Char} (isWord : OnlyWord text) (lowerRest : Bool) :
    OnlyWord (capitalize lowerRest text) := by
  cases text with
  | nil => exact isWord
  | cons first rest =>
      have others : OnlyWord rest := fun other listed => isWord other (by simp [listed])
      refine (onlyWord_upperChars (isWord first (by simp))).append ?_
      cases lowerRest with
      | false => exact others
      | true => exact onlyWord_lowerFrom others []

theorem onlyWord_uppercase {text : String} (isWord : OnlyWord text.toList) :
    OnlyWord (uppercase text).toList := by
  rw [uppercase, String.toList_ofList]
  exact .flatMap fun character inside => onlyWord_upperChars (isWord character inside)

theorem mem_of_mem_pieces {separator character : Char} {text piece : List Char}
    (listed : piece ∈ pieces separator text) (inside : character ∈ piece) : character ∈ text := by
  induction text generalizing piece with
  | nil =>
      rw [pieces, List.splitOn_nil, List.mem_singleton] at listed
      rw [listed] at inside
      cases inside
  | cons first rest ih =>
      obtain ⟨head, others, split⟩ := List.exists_cons_of_ne_nil (List.splitOn_ne_nil separator rest)
      have known : ∀ part ∈ head :: others, character ∈ part → character ∈ rest :=
        fun part isPart => ih (by rw [pieces, split]; exact isPart)
      rw [pieces, List.splitOn_eq_splitOnP, List.splitOnP_cons_eq_if_modifyHead,
        ← List.splitOn_eq_splitOnP, split] at listed
      split at listed
      · rcases List.mem_cons.mp listed with rfl | later
        · cases inside
        · exact List.mem_cons_of_mem _ (known piece later inside)
      · rcases List.mem_cons.mp listed with rfl | later
        · rcases List.mem_cons.mp inside with rfl | within
          · exact List.mem_cons_self
          · exact List.mem_cons_of_mem _ (known head (by simp) within)
        · exact List.mem_cons_of_mem _ (known piece (by simp [later]) inside)

theorem onlyWord_pascalCase {text : String} (isWord : OnlyWord text.toList) :
    OnlyWord (pascalCase text).toList := by
  rw [pascalCase]
  split
  · rw [String.toList_ofList]
    refine .flatMap fun piece listed => onlyWord_capitalize ?_ true
    exact fun character inside => isWord character (mem_of_mem_pieces listed inside)
  · rw [String.toList_ofList]
    exact onlyWord_capitalize isWord _

theorem onlyWord_lowerCamel {text : String} (isWord : OnlyWord text.toList) :
    OnlyWord (lowerCamel text).toList := by
  have camel : OnlyWord (if text.toList.contains '_' then pascalCase text else text).toList := by
    split
    · exact onlyWord_pascalCase isWord
    · exact isWord
  rw [lowerCamel]
  split
  · intro character impossible
    cases impossible
  · rename_i first rest spelled
    rw [spelled] at camel
    rw [String.toList_ofList]
    exact (onlyWord_lowerChars (camel first (by simp))).append
      fun other listed => camel other (by simp [listed])

theorem onlyWord_snakeFrom {text : List Char} (isWord : OnlyWord text) (before : Option Char) :
    OnlyWord (snakeFrom before text) := by
  induction text generalizing before with
  | nil => exact isWord
  | cons first rest ih =>
      have others := ih isWord.tail (some first)
      have mark : ∀ condition : Bool, OnlyWord (if condition then ['_'] else []) := by
        intro condition
        cases condition <;> exact List.all_eq_true.mp rfl
      unfold snakeFrom
      split
      · exact ((mark _).append (onlyWord_lowerChars (isWord first List.mem_cons_self))).append others
      · exact List.forall_mem_cons.mpr ⟨isWord first List.mem_cons_self, others⟩

theorem onlyWord_upperSnake {text : String} (isWord : OnlyWord text.toList) :
    OnlyWord (upperSnake text).toList := by
  apply onlyWord_uppercase
  rw [snakeCase, String.toList_ofList]
  exact onlyWord_snakeFrom isWord none

theorem isWord_baseName {text : String} (isWord : IsWord text) : IsWord (baseName text) := by
  rw [baseName]
  split
  · rename_i second rest spelled
    split
    · refine ⟨by simp, fun character inside => isWord.2 character ?_⟩
      rw [String.toList_ofList] at inside
      rw [spelled]
      exact List.mem_cons_of_mem _ inside
    · exact isWord
  · exact isWord

end DriverIdl.Text

/-- The segments of a dotted name are words. -/
theorem DriverIdl.Package.Dotted.onlyWord {name segment : String} (dotted : Dotted name)
    (listed : segment ∈ segments name) : Text.OnlyWord segment.toList :=
  (dotted.isWord listed).2
