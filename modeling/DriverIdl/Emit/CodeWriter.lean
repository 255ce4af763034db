import DriverIdl.Text.Casing

/-!
# Writing code

Generated code is a list of steps that a writer carries out line by line.  The writer keeps track of
the indentation, so a piece of code does not know how deep it stands.  Blank lines never carry
trailing blanks, and two of them never follow each other by way of `blank`.
-/

namespace DriverIdl

/-- A step of writing. -/
inductive CodeStep where
  | line (text : String)
  | blank
  | indent
  | dedent
  | opening (text : String)
  | closing (text : String)
  | block (text : String)
  | append (steps : List CodeStep)
  deriving Inhabited

/-- A piece of code. -/
abbrev Code := List CodeStep

/-- Lines written so far, the depth of the next one and the text of one level. -/
structure CodeWriter where
  lines : Array String := #[]
  depth : Nat := 0
  unit : String := "    "
  deriving Inhabited

/-- The lines of a text: each ends with a line feed, which may follow a carriage return. -/
def textLines (text : String) : List String :=
  let rows := Text.pieces '\n' text.toList
  let ended := rows.dropLast.map fun row =>
    if row.getLast? == some '\r' then row.dropLast else row
  let unended := match rows.getLast? with
    | none => []
    | some [] => []
    | some row => [row]
  (ended ++ unended).map String.ofList

namespace CodeWriter

/-- Writes a line at the current depth; an empty line stays empty. -/
def line (writer : CodeWriter) (text : String) : CodeWriter :=
  let written :=
    if text.isEmpty then "" else String.join (List.replicate writer.depth writer.unit) ++ text
  { writer with lines := writer.lines.push written }

/-- Writes an empty line behind a line that is not empty. -/
def blank (writer : CodeWriter) : CodeWriter :=
  if writer.lines.back?.any fun last => !last.isEmpty then
    { writer with lines := writer.lines.push "" }
  else writer

/-- Goes one level deeper. -/
def indent (writer : CodeWriter) : CodeWriter := { writer with depth := writer.depth + 1 }

/-- Comes back one level; the top level stays. -/
def dedent (writer : CodeWriter) : CodeWriter := { writer with depth := writer.depth - 1 }

/-- Whether nothing has been written. -/
def isEmpty (writer : CodeWriter) : Bool := writer.lines.isEmpty

/-- Writes the lines of another writer at the current depth. -/
def append (writer other : CodeWriter) : CodeWriter := other.lines.foldl line writer

mutual

/-- Carries out a step. -/
def step (writer : CodeWriter) : CodeStep → CodeWriter
  | .line text => writer.line text
  | .blank => writer.blank
  | .indent => writer.indent
  | .dedent => writer.dedent
  | .opening text => (writer.line text).indent
  | .closing text => writer.dedent.line text
  | .block text => (textLines text).foldl line writer
  | .append steps => writer.append (run ⟨#[], 0, writer.unit⟩ steps)

/-- Carries out steps in order. -/
def run (writer : CodeWriter) : List CodeStep → CodeWriter
  | [] => writer
  | first :: rest => run (step writer first) rest

end

section Unit

variable (writer : CodeWriter)

@[simp]
theorem unit_line (text : String) : (writer.line text).unit = writer.unit := rfl

@[simp]
theorem unit_blank : writer.blank.unit = writer.unit := by
  rw [blank]
  split <;> rfl

@[simp]
theorem unit_foldl_line (texts : List String) : (texts.foldl line writer).unit = writer.unit := by
  induction texts generalizing writer with
  | nil => rfl
  | cons text rest ih => exact ih (writer.line text)

@[simp]
theorem unit_append (other : CodeWriter) : (writer.append other).unit = writer.unit := by
  rw [append, ← Array.foldl_toList, unit_foldl_line]

@[simp]
theorem unit_step (step : CodeStep) : (writer.step step).unit = writer.unit := by
  cases step with
  | line text => rfl
  | blank => exact writer.unit_blank
  | indent => rfl
  | dedent => rfl
  | opening text => rfl
  | closing text => rfl
  | block text => exact writer.unit_foldl_line (textLines text)
  | append steps => exact writer.unit_append (run ⟨#[], 0, writer.unit⟩ steps)

/-- The text of one level stays. -/
@[simp]
theorem unit_run (code : List CodeStep) : (writer.run code).unit = writer.unit := by
  induction code generalizing writer with
  | nil => rfl
  | cons step rest ih => rw [run, ih, unit_step]

end Unit

/-- The text written, without empty lines at its end. -/
def finish (writer : CodeWriter) : String :=
  let kept := (writer.lines.toList.reverse.dropWhile String.isEmpty).reverse
  String.intercalate "\n" kept ++ "\n"

end CodeWriter

/-- The text of a piece of code, with four blanks for each level. -/
def Code.text (code : Code) : String := (CodeWriter.run {} code).finish

end DriverIdl
