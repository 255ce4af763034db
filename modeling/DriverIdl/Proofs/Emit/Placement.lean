import DriverIdl.Emit.Render
import DriverIdl.Proofs.Emit.Expressible
import Mathlib.Data.List.Basic

/-!
# Where code stands in a file

The writer only appends, so the lines of a piece of code stand together in the text of every file
that the piece is a part of.
-/

namespace DriverIdl

/-- A text has lines one below the other, with one indentation in front of them. -/
def HasLines (text : String) (lines : List String) : Prop :=
  ∃ before behind indentation, text =
    String.intercalate "\n" (before ++ lines.map (indentation ++ ·) ++ behind) ++ "\n"

namespace CodeWriter

theorem run_append (writer : CodeWriter) (first second : List CodeStep) :
    writer.run (first ++ second) = (writer.run first).run second := by
  induction first generalizing writer with
  | nil => rfl
  | cons step rest ih => rw [List.cons_append, run, run, ih]

theorem lines_line (writer : CodeWriter) (text : String) :
    writer.lines.toList <+: (writer.line text).lines.toList := by
  rw [line, Array.toList_push]
  exact List.prefix_append _ _

theorem lines_foldl_line (writer : CodeWriter) (texts : List String) :
    writer.lines.toList <+: (texts.foldl line writer).lines.toList := by
  induction texts generalizing writer with
  | nil => exact List.prefix_refl _
  | cons text rest ih => exact (writer.lines_line text).trans (ih _)

theorem lines_step (writer : CodeWriter) (step : CodeStep) :
    writer.lines.toList <+: (writer.step step).lines.toList := by
  cases step with
  | line text => exact writer.lines_line text
  | blank =>
      rw [CodeWriter.step, blank]
      split
      · exact Array.toList_push ▸ List.prefix_append _ _
      · exact List.prefix_refl _
  | indent => exact List.prefix_refl _
  | dedent => exact List.prefix_refl _
  | opening text => exact writer.lines_line text
  | closing text => exact writer.dedent.lines_line text
  | block text => exact writer.lines_foldl_line _
  | append steps =>
      rw [CodeWriter.step, append, ← Array.foldl_toList]
      exact writer.lines_foldl_line _

/-- What has been written stays. -/
theorem lines_run (writer : CodeWriter) (code : List CodeStep) :
    writer.lines.toList <+: (writer.run code).lines.toList := by
  induction code generalizing writer with
  | nil => exact List.prefix_refl _
  | cons step rest ih => exact (writer.lines_step step).trans (ih _)

/-- The blanks in front of a line. -/
def indentation (writer : CodeWriter) : String :=
  String.join (List.replicate writer.depth writer.unit)

theorem lines_run_lines (writer : CodeWriter) {texts : List String} (full : "" ∉ texts) :
    (writer.run (Code.lines texts)).lines.toList =
      writer.lines.toList ++ texts.map (writer.indentation ++ ·) := by
  induction texts generalizing writer with
  | nil => exact (List.append_nil _).symm
  | cons text rest ih =>
      obtain ⟨nonempty, others⟩ := not_or.mp (mt List.mem_cons.mpr full)
      have isFull : ¬text.isEmpty = true := fun empty => nonempty (String.isEmpty_iff.mp empty).symm
      have written : (writer.line text).lines.toList =
          writer.lines.toList ++ [writer.indentation ++ text] := by
        rw [line, Array.toList_push, if_neg isFull]
        rfl
      calc (run writer (Code.lines (text :: rest))).lines.toList
          = (writer.line text).lines.toList ++ rest.map (writer.indentation ++ ·) :=
            ih (writer.line text) others
        _ = writer.lines.toList ++ (text :: rest).map (writer.indentation ++ ·) := by
            rw [written, List.append_assoc]
            rfl

/-- The empty lines that are cut off stand behind every line that is not empty. -/
theorem finish_of_append {writer : CodeWriter} {before behind : List String} {last : String}
    (nonempty : last.isEmpty = false)
    (written : writer.lines.toList = before ++ [last] ++ behind) :
    ∃ kept, writer.finish = String.intercalate "\n" (before ++ [last] ++ kept) ++ "\n" := by
  refine ⟨(behind.reverse.dropWhile String.isEmpty).reverse, ?_⟩
  have kept : (writer.lines.toList.reverse.dropWhile String.isEmpty).reverse =
      before ++ [last] ++ (behind.reverse.dropWhile String.isEmpty).reverse := by
    rw [written, List.reverse_append, List.dropWhile_append]
    split
    · rename_i empty
      simp [List.isEmpty_iff.mp empty, nonempty]
    · simp
  rw [finish, kept]

end CodeWriter

/-- Lines that are part of a piece of code stand together in its text. -/
theorem Code.hasLines_text {code : Code} {texts : List String} (some : texts ≠ [])
    (full : "" ∉ texts) (inside : Code.lines texts <:+: code) : HasLines (Code.text code) texts := by
  obtain ⟨early, late, rfl⟩ := inside
  let writer := CodeWriter.run {} early
  have written : (CodeWriter.run {} (early ++ Code.lines texts)).lines.toList =
      writer.lines.toList ++ texts.map (writer.indentation ++ ·) := by
    rw [CodeWriter.run_append]
    exact writer.lines_run_lines full
  obtain ⟨more, whole⟩ := (CodeWriter.run {} (early ++ Code.lines texts)).lines_run late
  rw [← CodeWriter.run_append, written] at whole
  obtain ⟨front, last, rfl⟩ := (List.eq_nil_or_concat texts).resolve_left some
  have nonempty : (writer.indentation ++ last).isEmpty = false := by
    have differs : last ≠ "" := fun empty => full (by simp [empty])
    simp [String.isEmpty_eq_false_iff, differs]
  have split : (CodeWriter.run {} (early ++ Code.lines (front.concat last) ++ late)).lines.toList =
      (writer.lines.toList ++ front.map (writer.indentation ++ ·)) ++
        [writer.indentation ++ last] ++ more := by
    rw [← whole]
    simp
  obtain ⟨kept, finished⟩ := CodeWriter.finish_of_append nonempty split
  refine ⟨writer.lines.toList, kept, writer.indentation, ?_⟩
  rw [Code.text, finished]
  simp

theorem Emit.exists_of_mapM {α β : Type} {items : List α} {render : α → Emit β} {values : List β}
    {item : α} (rendered : items.mapM render = .ok values) (listed : item ∈ items) :
    ∃ value ∈ values, render item = .ok value := by
  induction items generalizing values with
  | nil => cases listed
  | cons first rest ih =>
      rw [List.mapM_cons] at rendered
      obtain ⟨value, isValue, rendered⟩ := Emit.bind_eq_ok.mp rendered
      obtain ⟨others, areOthers, rendered⟩ := Emit.bind_eq_ok.mp rendered
      cases rendered
      rcases List.mem_cons.mp listed with rfl | later
      · exact ⟨value, List.mem_cons_self, isValue⟩
      · obtain ⟨other, isOther, same⟩ := ih areOthers later
        exact ⟨other, List.mem_cons_of_mem _ isOther, same⟩

theorem Emit.exists_of_mem_mapM {α β : Type} {items : List α} {render : α → Emit β} {values : List β}
    {value : β} (rendered : items.mapM render = .ok values) (listed : value ∈ values) :
    ∃ item ∈ items, render item = .ok value := by
  induction items generalizing values with
  | nil =>
      cases rendered
      cases listed
  | cons first rest ih =>
      rw [List.mapM_cons] at rendered
      obtain ⟨head, isHead, rendered⟩ := Emit.bind_eq_ok.mp rendered
      obtain ⟨others, areOthers, rendered⟩ := Emit.bind_eq_ok.mp rendered
      cases rendered
      rcases List.mem_cons.mp listed with rfl | later
      · exact ⟨first, List.mem_cons_self, isHead⟩
      · obtain ⟨item, isItem, same⟩ := ih areOthers later
        exact ⟨item, List.mem_cons_of_mem _ isItem, same⟩

/-- The files of an artifact are among those of its unit. -/
theorem Program.artifact_of_render {program : Program} {options : Options} {unit : CompiledUnit}
    {language : Language} {artifact : Artifact} {files : List GeneratedFile}
    (rendered : program.render options language unit = .ok files)
    (shown : program.shows options unit = true)
    (selected : artifact ∈ Artifact.forUnit unit.kind options.buildTarget)
    (supported : language.supports artifact = true) :
    ∃ own, artifact.render ⟨options, program, unit⟩ language = .ok own ∧
      ∀ file ∈ own, file ∈ files := by
  rw [render, if_pos shown] at rendered
  obtain ⟨groups, areGroups, whole⟩ := Emit.bind_eq_ok.mp rendered
  cases whole
  obtain ⟨own, isGroup, isOwn⟩ :=
    Emit.exists_of_mapM areGroups (List.mem_filter.mpr ⟨selected, supported⟩)
  exact ⟨own, isOwn, fun file listed => List.mem_flatten_of_mem isGroup listed⟩

/-- A file is the text of code that a piece of code is a part of. -/
def GeneratedFile.Contains (file : GeneratedFile) (piece : Code) : Prop :=
  ∃ code, file.contents = Code.text code ∧ piece <:+: code

namespace GeneratedFile.Contains

variable {file : GeneratedFile} {piece part : Code}

theorem part_of (contains : file.Contains piece) (inside : part <:+: piece) : file.Contains part := by
  obtain ⟨code, isText, isPiece⟩ := contains
  exact ⟨code, isText, inside.trans isPiece⟩

theorem hasLines {texts : List String} (contains : file.Contains (Code.lines texts))
    (some : texts ≠ []) (full : "" ∉ texts) : HasLines file.contents texts := by
  obtain ⟨code, isText, inside⟩ := contains
  rw [isText]
  exact Code.hasLines_text some full inside

end GeneratedFile.Contains

namespace Code

theorem infix_paragraphs {piece : Code} {pieces : List Code} (listed : piece ∈ pieces) :
    piece <:+: paragraphs pieces := by
  obtain ⟨early, late, rfl⟩ := List.append_of_mem listed
  cases piece with
  | nil => exact List.nil_infix
  | cons step rest =>
      refine ⟨paragraphs early, blank ++ paragraphs late, ?_⟩
      simp [paragraphs, List.flatMap_append]

/-- The code of an item is a part of the code of all items. -/
theorem infix_forEach {α : Type} {items : List α} {code : α → Emit Code} {all : Code} {item : α}
    (rendered : forEach items code = .ok all) (listed : item ∈ items) :
    ∃ piece, code item = .ok piece ∧ piece <:+: all := by
  obtain ⟨pieces, isPieces, rendered⟩ := Emit.bind_eq_ok.mp rendered
  cases rendered
  obtain ⟨piece, isPiece, rendersTo⟩ := Emit.exists_of_mapM isPieces listed
  exact ⟨piece, rendersTo, List.infix_of_mem_flatten isPiece⟩

theorem infix_bracedWith (head : String) (body : Code) (mark : String) :
    body <:+: bracedWith head body mark := ⟨_, _, rfl⟩

end Code

section Frames

open List (infix_append_of_infix_left infix_append_of_infix_right infix_refl)

variable (context : EmitContext) (name : String) (includes : List String) (preamble body : Code)

theorem CCode.contains_header : (CCode.header context name includes body).Contains body := by
  refine ⟨_, rfl, ?_⟩
  iterate 4 apply infix_append_of_infix_left
  exact infix_append_of_infix_right (infix_refl body)

theorem CCode.contains_source (tag : String) :
    (CCode.source context name includes tag body).Contains body :=
  ⟨_, rfl, infix_append_of_infix_right (infix_refl body)⟩

theorem CppCode.infix_inNamespaces : body <:+: CppCode.inNamespaces context body := by
  rw [CppCode.inNamespaces]
  iterate 2 apply infix_append_of_infix_left
  exact infix_append_of_infix_right (infix_refl body)

theorem CppCode.contains_header : (CppCode.header context name preamble body).Contains body := by
  refine ⟨_, rfl, ?_⟩
  iterate 2 apply infix_append_of_infix_left
  exact infix_append_of_infix_right (infix_inNamespaces context body)

theorem CppCode.contains_source (tag : String) :
    (CppCode.source context name includes tag body).Contains body :=
  ⟨_, rfl, infix_append_of_infix_right (infix_inNamespaces context body)⟩

theorem JavaCode.contains_file : (JavaCode.file context name includes body).Contains body :=
  ⟨_, rfl, infix_append_of_infix_right (infix_refl body)⟩

end Frames

end DriverIdl
