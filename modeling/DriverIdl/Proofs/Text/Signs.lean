import DriverIdl.Text.Casing

/-!
# Signs in changed texts

A sign is a character of ASCII in front of the letters, such as a separator of a path or the end of a
line.  No convention brings a sign into a text: every character that changes becomes one behind them.
-/

namespace DriverIdl.Text

/-- A character of ASCII in front of the letters. -/
def IsSign (character : Char) : Prop := 0 < character.toNat ∧ character.toNat < 0x41

instance (character : Char) : Decidable (IsSign character) := inferInstanceAs (Decidable (_ ∧ _))

variable {sign character : Char} {characters : List Char} {text : String}

theorem toNat_ofNat (code : Nat) :
    (Char.ofNat code).toNat = code ∨ (Char.ofNat code).toNat = 0 := by
  by_cases valid : code.isValidChar
  · exact .inl (congrArg Char.toNat (dif_pos valid))
  · exact .inr (congrArg Char.toNat (dif_neg valid))

theorem IsSign.ne_ofNat (isSign : IsSign sign) {code : Nat} (behind : 0x41 ≤ code) :
    sign ≠ Char.ofNat code := by
  rintro rfl
  have := toNat_ofNat code
  have := isSign.1
  have := isSign.2
  omega

/-- A shifted character stays behind the signs if the lowest one of each run does. -/
theorem le_shiftOnRun {runs : List (Nat × Nat × Nat × Int)} {code : Nat}
    (behind : ∀ run ∈ runs, (0x41 : Int) ≤ run.1 + run.2.2.2) (above : 0x41 ≤ code) :
    0x41 ≤ shiftOnRun runs code := by
  rw [shiftOnRun]
  split
  · rename_i found
    have isRun := behind _ (List.mem_of_find?_eq_some found)
    have holds := List.find?_some found
    simp only [Bool.and_eq_true, decide_eq_true_eq] at holds
    simp only [Int.ofNat_eq_natCast] at isRun ⊢
    omega
  · exact above

theorem sign_of_mem_lowerChars (isSign : IsSign sign) (inside : sign ∈ lowerChars character) :
    character = sign := by
  rw [lowerChars] at inside
  split at inside
  · rename_i ascii
    have small : ∀ code < 128, (Char.ofNat code).toLower.toNat < 0x41 →
        (Char.ofNat code).toLower = Char.ofNat code := by decide +kernel
    obtain rfl := List.mem_singleton.mp inside
    have same := small _ ascii
    rw [Char.ofNat_toNat] at same
    exact (same isSign.2).symm
  · rename_i above
    split at inside
    · simp only [List.mem_cons, List.not_mem_nil, or_false] at inside
      rcases inside with rfl | rfl <;> exact absurd isSign (by decide)
    · have runs : ∀ run ∈ lowerRuns, (0x41 : Int) ≤ run.1 + run.2.2.2 := by decide +kernel
      exact absurd (List.mem_singleton.mp inside) (isSign.ne_ofNat (le_shiftOnRun runs (by omega)))

theorem sign_of_mem_upperChars (isSign : IsSign sign) (inside : sign ∈ upperChars character) :
    character = sign := by
  rw [upperChars] at inside
  split at inside
  · rename_i ascii
    have small : ∀ code < 128, (Char.ofNat code).toUpper.toNat < 0x41 →
        (Char.ofNat code).toUpper = Char.ofNat code := by decide +kernel
    obtain rfl := List.mem_singleton.mp inside
    have same := small _ ascii
    rw [Char.ofNat_toNat] at same
    exact (same isSign.2).symm
  · rename_i above
    split at inside
    · rename_i found
      have expansions : ∀ entry ∈ upperExpansions, ∀ code ∈ entry.2, 0x41 ≤ code := by decide +kernel
      obtain ⟨code, listed, rfl⟩ := List.mem_map.mp inside
      exact absurd rfl (isSign.ne_ofNat (expansions _ (List.mem_of_find?_eq_some found) code listed))
    · have runs : ∀ run ∈ upperRuns, (0x41 : Int) ≤ run.1 + run.2.2.2 := by decide +kernel
      exact absurd (List.mem_singleton.mp inside) (isSign.ne_ofNat (le_shiftOnRun runs (by omega)))

/-- One step of `snake_case`; the first character has no underscore in front. -/
theorem snakeFrom_cons (before : Option Char) (character : Char) (rest : List Char) :
    ∃ mark, (mark = [] ∨ mark = ['_'] ∧ before ≠ none) ∧ snakeFrom before (character :: rest) =
      if isUppercase character then mark ++ lowerChars character ++ snakeFrom (some character) rest
      else character :: snakeFrom (some character) rest := by
  refine ⟨_, ?_, by rw [snakeFrom.eq_def]⟩
  cases before with
  | none => exact .inl rfl
  | some previous =>
      simp only
      split <;> simp

theorem sign_of_mem_snakeFrom {before : Option Char} (isSign : IsSign sign)
    (inside : sign ∈ snakeFrom before characters) : sign ∈ characters := by
  induction characters generalizing before with
  | nil => cases inside
  | cons character rest ih =>
      obtain ⟨mark, isMark, step⟩ := snakeFrom_cons before character rest
      rw [step] at inside
      split at inside
      · simp only [List.mem_append] at inside
        rcases inside with (marked | lower) | later
        · rcases isMark with rfl | ⟨rfl, -⟩
          · cases marked
          · obtain rfl := List.mem_singleton.mp marked
            exact absurd isSign (by decide)
        · exact List.mem_cons.mpr (.inl (sign_of_mem_lowerChars isSign lower).symm)
        · exact List.mem_cons_of_mem _ (ih later)
      · rcases List.mem_cons.mp inside with rfl | later
        · exact List.mem_cons_self
        · exact List.mem_cons_of_mem _ (ih later)

theorem sign_of_mem_lowerFrom {before : List Char} (isSign : IsSign sign)
    (inside : sign ∈ lowerFrom before characters) : sign ∈ characters := by
  induction characters generalizing before with
  | nil => cases inside
  | cons character rest ih =>
      rw [lowerFrom] at inside
      rcases List.mem_append.mp inside with lower | later
      · split at lower
        · have isSigma := List.mem_singleton.mp lower
          split at isSigma <;> exact absurd isSigma (isSign.ne_ofNat (by decide))
        · exact List.mem_cons.mpr (.inl (sign_of_mem_lowerChars isSign lower).symm)
      · exact List.mem_cons_of_mem _ (ih later)

theorem sign_of_mem_uppercase (isSign : IsSign sign) (inside : sign ∈ (uppercase text).toList) :
    sign ∈ text.toList := by
  rw [uppercase, String.toList_ofList] at inside
  obtain ⟨character, listed, mapped⟩ := List.mem_flatMap.mp inside
  exact sign_of_mem_upperChars isSign mapped ▸ listed

end DriverIdl.Text
