import DriverIdl.Proofs.Emit.Placement
import Mathlib.Data.List.Induction

/-!
# Code written apart

A piece of code may be written by a writer of its own and then be appended, or be written in place by
the writer that goes on with it.  The lines are the same, as long as the code stays inside itself: it
comes back only from levels that it has entered, and asks for an empty line only behind a line of its
own.
-/

namespace DriverIdl

/-- A step that goes one level deeper. -/
def CodeStep.enters : CodeStep → Bool
  | .indent | .opening _ => true
  | _ => false

/-- A step that comes back one level. -/
def CodeStep.leaves : CodeStep → Bool
  | .dedent | .closing _ => true
  | _ => false

mutual

/-- Whether a step writes a line even where nothing stands in front of it. -/
def CodeStep.writes : CodeStep → Bool
  | .line _ | .opening _ | .closing _ => true
  | .blank | .indent | .dedent => false
  | .block text => !(textLines text).isEmpty
  | .append steps => Code.writes steps

/-- Whether a piece of code writes a line. -/
def Code.writes : List CodeStep → Bool
  | [] => false
  | step :: rest => step.writes || Code.writes rest

end

/-- A step goes on inside the code in front of it: there is a level to come back from, or a line that
an empty one can stand behind. -/
def CodeStep.Continues (front : Code) : CodeStep → Prop
  | .dedent | .closing _ => front.countP CodeStep.leaves < front.countP CodeStep.enters
  | .blank => Code.writes front = true
  | .line _ | .indent | .opening _ | .block _ | .append _ => True

instance (front : Code) : DecidablePred (CodeStep.Continues front)
  | .dedent | .closing _ =>
      inferInstanceAs (Decidable (front.countP CodeStep.leaves < front.countP CodeStep.enters))
  | .blank => inferInstanceAs (Decidable (Code.writes front = true))
  | .line _ | .indent | .opening _ | .block _ | .append _ => inferInstanceAs (Decidable True)

theorem CodeStep.Continues.entered {front : Code} {step : CodeStep} (continues : step.Continues front)
    (leaves : step.leaves = true) : front.countP CodeStep.leaves < front.countP CodeStep.enters := by
  cases step with
  | dedent => exact continues
  | closing text => exact continues
  | _ => cases leaves

/-- A piece of code never comes back from a level that it has not entered, and does not ask for an
empty line in front of its first line.  What it appends is written apart and may do both. -/
def Code.StaysInside (code : Code) : Prop :=
  ∀ index : Fin code.length, code[index].Continues (code.take index)

instance : DecidablePred Code.StaysInside := fun code =>
  inferInstanceAs (Decidable (∀ index : Fin code.length, code[index].Continues (code.take index)))

theorem Code.StaysInside.of_concat {front : Code} {step : CodeStep}
    (inside : Code.StaysInside (front ++ [step])) : front.StaysInside ∧ step.Continues front := by
  constructor
  · intro index
    have within := inside (Fin.castLE (by simp) index)
    simpa [List.take_append_of_le_length (Nat.le_of_lt index.isLt)] using within
  · have last := inside ⟨front.length, by simp⟩
    simpa using last

namespace CodeWriter

/-- A writer of the same indentation that has written nothing yet. -/
def apart (writer : CodeWriter) : CodeWriter := { unit := writer.unit }

/-- What a writer has for a line of text. -/
def placed (writer : CodeWriter) (text : String) : String :=
  if text.isEmpty then "" else writer.indentation ++ text

theorem line_eq (writer : CodeWriter) (text : String) :
    writer.line text = { writer with lines := writer.lines.push (writer.placed text) } := rfl

theorem placed_eq_empty_iff (writer : CodeWriter) (text : String) :
    writer.placed text = "" ↔ text = "" := by
  unfold placed
  split
  · rename_i empty
    simp [String.isEmpty_iff.mp empty]
  · rename_i nonempty
    have differs : text ≠ "" := fun empty => nonempty (String.isEmpty_iff.mpr empty)
    simp [differs]

theorem isEmpty_placed (writer : CodeWriter) (text : String) :
    (writer.placed text).isEmpty = text.isEmpty := by
  rw [Bool.eq_iff_iff, String.isEmpty_iff, String.isEmpty_iff, placed_eq_empty_iff]

theorem foldl_line_eq (writer : CodeWriter) (texts : List String) :
    texts.foldl line writer =
      { writer with lines := writer.lines ++ (texts.map writer.placed).toArray } := by
  induction texts generalizing writer with
  | nil => simp
  | cons text rest ih =>
      have depth : (writer.line text).placed = writer.placed := rfl
      rw [List.foldl_cons, ih, depth, line_eq, List.map_cons]
      simp

/-- Appending puts the lines of the other writer below, each one as deep as the appending writer
stands. -/
theorem append_eq (writer other : CodeWriter) : writer.append other =
    { writer with lines := writer.lines ++ other.lines.map writer.placed } := by
  rw [append, ← Array.foldl_toList, foldl_line_eq, ← Array.toList_map, Array.toArray_toList]

/-! ## Going on where another writer stands -/

/-- The writer that has the lines of a first one and, as deep below them as the first one stands, the
lines of a second one, and that goes on where the second one stands. -/
def onTop (outer inner : CodeWriter) : CodeWriter :=
  { outer.append inner with depth := outer.depth + inner.depth }

variable {outer inner : CodeWriter}

theorem onTop_eq : outer.onTop inner =
    ⟨outer.lines ++ inner.lines.map outer.placed, outer.depth + inner.depth, outer.unit⟩ := by
  rw [onTop, append_eq]

theorem indentation_onTop (sameUnit : inner.unit = outer.unit) :
    (outer.onTop inner).indentation = outer.indentation ++ inner.indentation := by
  apply String.toList_injective
  simp only [onTop_eq, indentation, sameUnit, ← List.replicate_append_replicate, String.toList_append,
    String.toList_join, List.flatMap_append]

theorem placed_onTop (sameUnit : inner.unit = outer.unit) (text : String) :
    (outer.onTop inner).placed text = outer.placed (inner.placed text) := by
  by_cases empty : text = ""
  · simp [placed, empty]
  · have differs : inner.placed text ≠ "" := mt (inner.placed_eq_empty_iff text).mp empty
    have written : inner.placed text = inner.indentation ++ text := by simp [placed, empty]
    rw [placed, placed, indentation_onTop sameUnit, if_neg (by simpa using empty),
      if_neg (by simpa using differs), written, String.append_assoc]

theorem onTop_line (sameUnit : inner.unit = outer.unit) (text : String) :
    (outer.onTop inner).line text = outer.onTop (inner.line text) := by
  rw [line_eq, line_eq, placed_onTop sameUnit, onTop_eq, onTop_eq]
  simp

theorem onTop_foldl_line (sameUnit : inner.unit = outer.unit) (texts : List String) :
    texts.foldl line (outer.onTop inner) = outer.onTop (texts.foldl line inner) := by
  induction texts generalizing inner with
  | nil => rfl
  | cons text rest ih =>
      rw [List.foldl_cons, onTop_line sameUnit, @ih (inner.line text) sameUnit, List.foldl_cons]

theorem onTop_indent : (outer.onTop inner).indent = outer.onTop inner.indent := by
  rw [indent, indent, onTop_eq, onTop_eq, Nat.add_assoc]

theorem onTop_dedent (entered : 0 < inner.depth) :
    (outer.onTop inner).dedent = outer.onTop inner.dedent := by
  simp only [dedent, onTop_eq, mk.injEq, true_and, and_true]
  omega

/-- The line in front of an empty one is a line of the inner writer, and indenting it leaves it empty
or not empty. -/
theorem onTop_blank (some : inner.lines ≠ #[]) :
    (outer.onTop inner).blank = outer.onTop inner.blank := by
  obtain ⟨front, last, isLast⟩ := Array.exists_push_of_ne_empty some
  have sameLast : ((outer.onTop inner).lines.back?.any fun line => !line.isEmpty) =
      inner.lines.back?.any fun line => !line.isEmpty := by
    simp [onTop_eq, isLast, isEmpty_placed]
  have empty : outer.placed "" = "" := (outer.placed_eq_empty_iff "").mpr rfl
  rw [blank, blank, sameLast]
  split
  · simp [onTop_eq, empty]
  · rfl

/-- Carrying out a step on top of another writer.  What the step appends is written apart in both
cases, so it needs no condition. -/
theorem onTop_step (sameUnit : inner.unit = outer.unit) {step : CodeStep}
    (entered : step.leaves = true → 0 < inner.depth) (some : step = .blank → inner.lines ≠ #[]) :
    (outer.onTop inner).step step = outer.onTop (inner.step step) := by
  cases step with
  | line text => exact onTop_line sameUnit text
  | blank => exact onTop_blank (some rfl)
  | indent => exact onTop_indent
  | dedent => exact onTop_dedent (entered rfl)
  | opening text =>
      rw [CodeWriter.step, onTop_line sameUnit]
      exact onTop_indent
  | closing text =>
      rw [CodeWriter.step, onTop_dedent (entered rfl)]
      exact @onTop_line _ inner.dedent sameUnit text
  | block text => exact onTop_foldl_line sameUnit (textLines text)
  | append steps =>
      have unit : (outer.onTop inner).unit = inner.unit := by rw [onTop_eq, sameUnit]
      rw [CodeWriter.step, CodeWriter.step, append, append, ← Array.foldl_toList, ← Array.foldl_toList,
        unit, onTop_foldl_line sameUnit]

/-! ## What a run leaves -/

theorem depth_step (writer : CodeWriter) (step : CodeStep) :
    (writer.step step).depth = writer.depth + step.enters.toNat - step.leaves.toNat := by
  cases step with
  | line text => rfl
  | blank =>
      rw [CodeWriter.step, blank]
      split <;> rfl
  | indent => rfl
  | dedent => rfl
  | opening text => rfl
  | closing text => rfl
  | block text => rw [CodeWriter.step, foldl_line_eq]; rfl
  | append steps => rw [CodeWriter.step, append_eq]; rfl

theorem countP_concat (chosen : CodeStep → Bool) (front : Code) (step : CodeStep) :
    (front ++ [step]).countP chosen = front.countP chosen + (chosen step).toNat := by
  rw [List.countP_append, List.countP_singleton]
  cases chosen step <;> rfl

/-- Code that stays inside itself ends as deep as the levels say that it has entered and left. -/
theorem depth_run_apart (writer : CodeWriter) {code : Code} (inside : code.StaysInside) :
    (writer.apart.run code).depth + code.countP CodeStep.leaves = code.countP CodeStep.enters := by
  induction code using List.reverseRecOn with
  | nil => rfl
  | append_singleton front step ih =>
      obtain ⟨within, continues⟩ := inside.of_concat
      have depth := ih within
      have enough : step.leaves.toNat ≤ (writer.apart.run front).depth := by
        cases leaves : step.leaves with
        | false => exact Nat.zero_le _
        | true =>
            have fewer := continues.entered leaves
            simp only [Bool.toNat_true]
            omega
      rw [run_append, run, run, depth_step, countP_concat, countP_concat]
      omega

mutual

theorem lines_step_ne_empty (writer : CodeWriter) (step : CodeStep) (writes : step.writes = true) :
    (writer.step step).lines ≠ #[] := by
  cases step with
  | line text => exact Array.push_ne_empty
  | blank => cases writes
  | indent => cases writes
  | dedent => cases writes
  | opening text => exact Array.push_ne_empty
  | closing text => exact Array.push_ne_empty
  | block text =>
      have some : textLines text ≠ [] := by simpa [CodeStep.writes] using writes
      rw [CodeWriter.step, foldl_line_eq]
      simp [some]
  | append steps =>
      have some : (run ⟨#[], 0, writer.unit⟩ steps).lines ≠ #[] := lines_run_ne_empty _ steps writes
      rw [CodeWriter.step, append_eq]
      simp [some]

/-- Code that writes a line leaves a line. -/
theorem lines_run_ne_empty (writer : CodeWriter) (code : List CodeStep)
    (writes : Code.writes code = true) : (writer.run code).lines ≠ #[] := by
  match code with
  | [] => cases writes
  | step :: rest =>
      rw [Code.writes, Bool.or_eq_true] at writes
      rcases writes with first | later
      · have some := lines_step_ne_empty writer step first
        have kept := (writer.step step).lines_run rest
        intro none
        rw [run] at none
        rw [none] at kept
        exact some (Array.toList_eq_nil_iff.mp (List.prefix_nil.mp kept))
      · exact lines_run_ne_empty (writer.step step) rest later

end

/-- Code that stays inside itself can be carried out in place: the lines are those of a writer that
carries it out apart, put where it stands. -/
theorem run_eq_onTop (writer : CodeWriter) {code : Code} (inside : code.StaysInside) :
    writer.run code = writer.onTop (writer.apart.run code) := by
  induction code using List.reverseRecOn with
  | nil => simp [run, onTop_eq, apart]
  | append_singleton front step ih =>
      obtain ⟨within, continues⟩ := inside.of_concat
      have sameUnit : (writer.apart.run front).unit = writer.unit := unit_run _ front
      have depth := depth_run_apart writer within
      have entered : step.leaves = true → 0 < (writer.apart.run front).depth := by
        intro leaves
        have fewer := continues.entered leaves
        omega
      have some : step = .blank → (writer.apart.run front).lines ≠ #[] := by
        rintro rfl
        exact lines_run_ne_empty _ front continues
      rw [run_append, run_append, ih within]
      exact onTop_step sameUnit entered some

/-- Appending a writer that has carried out a piece of code is carrying it out in place. -/
theorem append_writes_in_place (outer : CodeWriter) (code : Code) (inside : code.StaysInside) :
    (outer.append (outer.apart.run code)).lines = (outer.run code).lines := by
  rw [run_eq_onTop outer inside, onTop]

/-- A function body with a paragraph that begins by asking for an empty line and comes back from a
level that only the body has entered. -/
theorem append_writes_in_place_paragraph :
    let outer : CodeWriter := { lines := #["\x7b"], depth := 1, unit := "  " }
    let code : Code := [.opening "if (x) \x7b", .append [.blank, .dedent, .line "a;"], .blank, .blank,
      .block "b;\n\nc;", .closing "\x7d", .append [.blank]]
    code.StaysInside ∧ (outer.append (outer.apart.run code)).lines = (outer.run code).lines ∧
      (outer.run code).lines = #["\x7b", "  if (x) \x7b", "    a;", "", "    b;", "", "    c;", "  \x7d"] :=
  ⟨by decide, append_writes_in_place _ _ (by decide), by decide +kernel⟩

/-- Coming back below its start, code in place stands less deep than the writer that it would be
appended to. -/
example : ((CodeWriter.indent {}).append (run {} [.dedent, .line "a;"])).lines ≠
    ((CodeWriter.indent {}).run [.dedent, .line "a;"]).lines := by decide +kernel

/-- In front of its first line, code in place finds the line that it would be appended to. -/
example : ((CodeWriter.line {} "a;").append (run {} [.blank, .line "b;"])).lines ≠
    ((CodeWriter.line {} "a;").run [.blank, .line "b;"]).lines := by decide +kernel

end CodeWriter

end DriverIdl
