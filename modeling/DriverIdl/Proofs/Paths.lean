import DriverIdl.Path
import DriverIdl.Proofs.Parsing.Names
import Mathlib.Data.List.Induction

/-!
# The steps of joined paths

A name without separators is one more step behind any path, whether the path is empty, ends with a
separator or does neither.
-/

namespace DriverIdl

namespace Path

/-- A text that stands for itself as the last step of a path. -/
structure IsFileName (name : String) : Prop where
  undivided : '/' ∉ name.toList
  visible : name.toList ≠ []
  notDot : name.toList.getLast? ≠ some '.'

instance : DecidablePred IsFileName := fun name =>
  decidable_of_iff
    ('/' ∉ name.toList ∧ name.toList ≠ [] ∧ name.toList.getLast? ≠ some '.')
    ⟨fun ⟨undivided, visible, notDot⟩ => ⟨undivided, visible, notDot⟩,
      fun isName => ⟨isName.undivided, isName.visible, isName.notDot⟩⟩

theorem IsFileName.append {front back : String} (undivided : '/' ∉ front.toList)
    (isName : IsFileName back) : IsFileName (front ++ back) where
  undivided := by simp [undivided, isName.undivided]
  visible := by simpa using fun _ => by simpa using isName.visible
  notDot := by
    rw [String.toList_append, List.getLast?_append_of_ne_nil _ isName.visible]
    exact isName.notDot

theorem IsFileName.relative {name : String} (isName : IsFileName name) :
    isAbsolute ⟨name⟩ = false := by
  rw [isAbsolute, beq_eq_false_iff_ne]
  intro first
  exact isName.undivided (List.mem_of_mem_head? (Option.mem_def.mpr first))

/-- A word is the name of a directory. -/
theorem isFileName_of_isWord {word : String} (isWord : Text.IsWord word) : IsFileName word where
  undivided inside := absurd (isWord.2 '/' inside) (by decide)
  visible := isWord.1
  notDot last := isWord.undotted (List.mem_of_getLast? last)

/-- A name behind the pieces of a path, which may end with a separator, is one more step. -/
theorem components_eq_concat {path joined : Path} {name : String} {before : List (List Char)}
    (isName : IsFileName name) (sameRoot : joined.isAbsolute = path.isAbsolute)
    (split : Text.pieces '/' joined.text.toList = before ++ [name.toList])
    (isPath : Text.pieces '/' path.text.toList = before ∨
      Text.pieces '/' path.text.toList = before ++ [[]]) :
    joined.components = path.components ++ [.normal name] := by
  obtain ⟨-, visible, notDot⟩ := isName
  have moves : name.toList ≠ ['.'] := fun dot => notDot (by rw [dot]; rfl)
  have down : name.toList ≠ ['.', '.'] := fun dots => notDot (by rw [dots]; rfl)
  have isNormal : Component.normal name = .normal (String.ofList name.toList) := by simp
  rw [isNormal]
  generalize name.toList = last at split visible moves down
  have sameStart : ((before ++ [last]).head? == some ['.']) =
      ((Text.pieces '/' path.text.toList).head? == some ['.']) := by
    cases before with
    | nil =>
        rcases isPath with none | empty
        · exact absurd none (List.splitOn_ne_nil _ _)
        · simp [empty, moves]
    | cons first rest => rcases isPath with same | ended <;> simp [*]
  simp only [components, split, sameRoot, sameStart, List.append_assoc]
  congr 1
  rcases isPath with same | ended
  · rw [same, List.filterMap_append]
    simp
  · rw [ended, List.filterMap_append, List.filterMap_append]
    simp

theorem components_join {name : String} (isName : IsFileName name) (path : Path) :
    (path.join ⟨name⟩).components = path.components ++ [.normal name] := by
  have single : Text.pieces '/' name.toList = [name.toList] :=
    List.splitOn_eq_singleton isName.undivided
  have divided (front : List Char) :
      Text.pieces '/' (front ++ '/' :: name.toList) = Text.pieces '/' front ++ [name.toList] := by
    rw [← single]
    exact List.splitOn_append_cons_self _ _
  rw [join, if_neg (by simp [isName.relative])]
  by_cases empty : path.text.toList = []
  · have isEmpty : path.text = "" := String.toList_eq_nil_iff.mp empty
    rw [if_pos (by simp [empty]), isEmpty, String.empty_append]
    refine components_eq_concat isName ?_ (show _ = [] ++ [name.toList] from single) (.inr ?_)
    · rw [isAbsolute, isAbsolute, empty]
      exact isName.relative
    · rw [empty]
      rfl
  · have head {rest : List Char} : (path.text.toList ++ rest).head? = path.text.toList.head? :=
      List.head?_append_of_ne_nil _ empty
    split
    · rename_i ends
      have slash : path.text.toList.getLast? = some '/' := by simpa [empty] using ends
      obtain ⟨front, isFront⟩ := List.getLast?_eq_some_iff.mp slash
      apply components_eq_concat isName (by simp [isAbsolute, head])
      · rw [String.toList_append, isFront, List.append_assoc]
        exact divided front
      · right
        rw [isFront]
        exact List.splitOn_append_cons_self _ _
    · apply components_eq_concat isName (by simp [isAbsolute, List.append_assoc, head])
      · have spelled :
            (path.text ++ "/" ++ name).toList = path.text.toList ++ '/' :: name.toList := by simp
        rw [spelled]
        exact divided _
      · exact .inl rfl

/-- What stands between a path and a name behind it. -/
def separator (path : Path) : String :=
  if path.text.toList.isEmpty || path.text.toList.getLast? == some '/' then "" else "/"

theorem join_of_relative {path below : Path} (relative : below.isAbsolute = false) :
    path.join below = ⟨path.text ++ path.separator ++ below.text⟩ := by
  rw [join, separator, if_neg (by simp [relative])]
  split <;> simp

theorem join_of_absolute {path below : Path} (absolute : below.isAbsolute = true) :
    path.join below = below := if_pos absolute

theorem empty_join {name : String} (isName : IsFileName name) : join ⟨""⟩ ⟨name⟩ = ⟨name⟩ := by
  rw [join_of_relative isName.relative]
  rfl

theorem join_join {name : String} (isName : IsFileName name) (path below : Path) :
    path.join (below.join ⟨name⟩) = (path.join below).join ⟨name⟩ := by
  by_cases empty : below.text.toList = []
  · have isEmpty : below = ⟨""⟩ := by
      cases below
      simpa using empty
    subst isEmpty
    rw [empty_join isName, join_of_relative isName.relative, join_of_relative isName.relative,
      join_of_relative rfl]
    simp only [separator]
    split <;> simp_all
  · have head {rest : String} : (below.text ++ rest).toList.head? = below.text.toList.head? := by
      rw [String.toList_append]
      exact List.head?_append_of_ne_nil _ empty
    by_cases absolute : below.isAbsolute = true
    · have absoluteToo : (below.join ⟨name⟩).isAbsolute = true := by
        rw [join_of_relative isName.relative, isAbsolute, String.append_assoc, head]
        exact absolute
      rw [join_of_absolute absoluteToo, join_of_absolute absolute]
    · have relative : below.isAbsolute = false := by simpa using absolute
      have relativeToo : (below.join ⟨name⟩).isAbsolute = false := by
        rw [join_of_relative isName.relative, isAbsolute, String.append_assoc, head]
        exact relative
      have last : separator ⟨path.text ++ path.separator ++ below.text⟩ = below.separator := by
        simp [separator, empty, List.getLast?_append]
      rw [join_of_relative relativeToo, join_of_relative isName.relative,
        join_of_relative isName.relative, join_of_relative relative, last]
      simp [String.append_assoc]

/-- The steps of a file below a directory of names. -/
theorem components_ofNames_join {names : List String} (areNames : ∀ name ∈ names, IsFileName name)
    {file : String} (isFile : IsFileName file) (path : Path) :
    ((path.join (ofNames names)).join ⟨file⟩).components =
      path.components ++ (names ++ [file]).map .normal := by
  induction names using List.reverseRecOn generalizing file with
  | nil =>
      have none : ofNames [] = ⟨""⟩ := rfl
      rw [← join_join isFile, none, empty_join isFile, components_join isFile]
      rfl
  | append_singleton names last ih =>
      have isLast : IsFileName last := areNames last (by simp)
      have below : ofNames (names ++ [last]) = (ofNames names).join ⟨last⟩ := by simp [ofNames]
      rw [components_join isFile, below, join_join isLast,
        ih (fun name listed => areNames name (by simp [listed])) isLast]
      simp

end Path

theorem Text.not_mem_of_mem_pieces {separator : Char} {characters piece : List Char}
    (listed : piece ∈ pieces separator characters) : separator ∉ piece := by
  induction characters generalizing piece with
  | nil =>
      rw [List.mem_singleton.mp listed]
      exact List.not_mem_nil
  | cons first rest ih =>
      rw [pieces, List.splitOn_cons_eq_if_modifyHead] at listed
      split at listed
      · rcases List.mem_cons.mp listed with rfl | later
        · exact List.not_mem_nil
        · exact ih later
      · rename_i differs
        obtain ⟨head, others, split⟩ :=
          List.exists_cons_of_ne_nil (List.splitOn_ne_nil separator rest)
        rw [split, List.modifyHead_cons] at listed
        have kept : ∀ other ∈ head :: others, separator ∉ other :=
          fun other isOther => ih (by rw [pieces, split]; exact isOther)
        rcases List.mem_cons.mp listed with rfl | later
        · have isNew : separator ≠ first := fun same => differs (by simp [same])
          exact List.not_mem_cons_of_ne_of_not_mem isNew (kept head List.mem_cons_self)
        · exact kept piece (List.mem_cons_of_mem _ later)

/-- A name in a path stands between its separators. -/
theorem Path.toList_mem_pieces {path : Path} {name : String}
    (listed : .normal name ∈ path.components) : name.toList ∈ Text.pieces '/' path.text.toList := by
  rw [components] at listed
  rcases List.mem_append.mp listed with isFirst | isStep
  · split at isFirst
    · simp at isFirst
    · split at isFirst <;> simp at isFirst
  · obtain ⟨piece, isPiece, steps⟩ := List.mem_filterMap.mp isStep
    have spelled : name = String.ofList piece := by
      split at steps <;> simp_all
    rwa [spelled, String.toList_ofList]

theorem Path.undivided_of_mem_components {path : Path} {name : String}
    (listed : .normal name ∈ path.components) : '/' ∉ name.toList :=
  Text.not_mem_of_mem_pieces (toList_mem_pieces listed)

theorem Path.toList_stemOf_sublist (name : String) : (stemOf name).toList.Sublist name.toList := by
  rw [stemOf]
  split
  · exact List.Sublist.refl _
  · exact List.Sublist.refl _
  · rename_i dot stem _ rest
    have tail : (dot :: stem).Sublist name.toList.reverse := rest ▸ List.dropWhile_sublist _
    rw [String.toList_ofList, ← List.reverse_reverse name.toList]
    exact ((List.sublist_cons_self dot stem).trans tail).reverse

/-- A stem is part of a name in its path. -/
theorem Path.exists_component_of_mem_stem {path : Path} {character : Char}
    (inside : character ∈ (path.stem?.getD "").toList) :
    ∃ name, .normal name ∈ path.components ∧ character ∈ name.toList := by
  cases named : path.fileName? with
  | none => simp [stem?, named] at inside
  | some name =>
      rw [stem?, named, Option.map_some, Option.getD_some] at inside
      rw [fileName?] at named
      split at named
      · rename_i last
        cases named
        exact ⟨name, List.mem_of_getLast? last, (toList_stemOf_sublist name).subset inside⟩
      · cases named

theorem Path.undivided_stem (path : Path) : '/' ∉ (path.stem?.getD "").toList := by
  intro inside
  obtain ⟨name, listed, within⟩ := exists_component_of_mem_stem inside
  exact undivided_of_mem_components listed within

end DriverIdl
