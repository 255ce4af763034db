import DriverIdl.Emit.Basic
import Mathlib.Data.List.Basic

/-!
# Parcel functions in generated code

Which parcel functions a piece of generated code calls, taken from its text: in the order in which
they stand there, and with the number of loops around each of them.  A line falls into runs of
characters and the signs between them; string literals are left out.  A block opens at the end of a
line and closes at the start of one.

`Emits` says what a piece of code calls wherever it stands, so that what a function calls can be
composed of what its pieces call.
-/

namespace DriverIdl

section Lexing

/-- A run of characters, or a sign between runs. -/
inductive CodeLexeme where
  | run (text : List Char)
  | sign (character : Char)
  deriving DecidableEq

namespace CodeLexeme

/-- Whether a character stands between runs. -/
def separates (character : Char) : Bool :=
  [' ', '\n', '"', '(', ')', '\x7b', '\x7d', ',', ';', '!'].contains character

/-- Lexemes behind characters, which belong to the first run if there is one. -/
def extend (characters : List Char) : List CodeLexeme → List CodeLexeme
  | .run text :: rest => .run (characters ++ text) :: rest
  | behind => .run characters :: behind

/-- The lexemes of a text.  Of string literals only the quotes are kept. -/
def lexFrom (quoted : Bool) : List Char → List CodeLexeme
  | [] => []
  | character :: rest =>
    if quoted then if character = '"' then .sign '"' :: lexFrom false rest else lexFrom true rest
    else if separates character then .sign character :: lexFrom (character = '"') rest
    else extend [character] (lexFrom false rest)

/-- The lexemes of a line without its indentation. -/
def ofLine (line : List Char) : List CodeLexeme := lexFrom false (line.dropWhile (· = ' '))

/-- The lexemes of a text, line by line.  Lines without lexemes are left out. -/
def rows (text : List Char) : List (List CodeLexeme) :=
  ((Text.pieces '\n' text).map ofLine).filter (· ≠ [])

end CodeLexeme

end Lexing

section Calls

/-- A parcel function without the side it is called on: what is written or read, the struct whose
functions are called, or a queue. -/
inductive Callee where
  | plain (kind : List Char)
  | block (record : List Char)
  | queue
  deriving DecidableEq

namespace Callee

-- Names are spelled out character by character: they are compared with closed lists all the time.

/-- What the names of writing functions start with behind the parcel. -/
def writing : List Char := ['W', 'r', 'i', 't', 'e']

/-- What the names of reading functions start with behind the parcel. -/
def reading : List Char := ['R', 'e', 'a', 'd']

/-- What the names of functions on a buffer start with. -/
def onBuffer : List Char := ['H', 'd', 'f', 'S', 'b', 'u', 'f']

/-- What the names of the functions that write a struct end with. -/
def writingBlock : List Char :=
  ['B', 'l', 'o', 'c', 'k', 'M', 'a', 'r', 's', 'h', 'a', 'l', 'l', 'i', 'n', 'g']

/-- What the names of the functions that read a struct end with. -/
def readingBlock : List Char :=
  ['B', 'l', 'o', 'c', 'k', 'U', 'n', 'm', 'a', 'r', 's', 'h', 'a', 'l', 'l', 'i', 'n', 'g']

/-- The member of a queue that writes it. -/
def writingQueue : List Char :=
  ['-', '>', 'M', 'a', 'r', 's', 'h', 'a', 'l', 'l', 'i', 'n', 'g']

/-- What the names of the functions that read a queue end with. -/
def readingQueue : List Char :=
  [':', ':', 'U', 'n', 'M', 'a', 'r', 's', 'h', 'a', 'l', 'l', 'i', 'n', 'g']

/-- The parcel function that a method of a parcel is, without its template arguments. -/
def ofMethod? (method : List Char) : Option Callee :=
  ((method.dropPrefix? writing) <|> (method.dropPrefix? reading)).map fun kind =>
    .plain (kind.takeWhile (· != '<'))

/-- The parcel function that a function is which gets a parcel first.  Members of objects are none,
but for those of queues. -/
def ofFunction? (function : List Char) : Option Callee :=
  if function = writingQueue ∨ readingQueue <:+ function then some .queue
  else if function.all fun character => isWordChar character || character == ':' then
    (((function.dropSuffix? writingBlock) <|> (function.dropSuffix? readingBlock)).map .block) <|>
      (((function.dropPrefix? (onBuffer ++ writing)) <|>
        (function.dropPrefix? (onBuffer ++ reading))).map .plain)
  else none

end Callee

/-- A call in a text: of a function with the run that it gets first, or of a method of an object. -/
inductive Application where
  | function (name first : List Char)
  | method (object name : List Char)
  deriving DecidableEq

namespace Application

/-- The run that stands right behind an opening parenthesis. -/
def argument? : List CodeLexeme → Option (List Char)
  | .sign sign :: .run first :: _ => if sign = '(' then some first else none
  | _ => none

/-- The calls of a run and the lexemes behind it. -/
def atRun (run : List Char) (behind : List CodeLexeme) : List Application :=
  if '.' ∈ run then [.method (run.takeWhile (· != '.')) (run.dropWhile (· != '.')).tail]
  else (argument? behind).toList.map (.function run)

/-- The calls of a row of lexemes. -/
def inRow : List CodeLexeme → List Application
  | [] => []
  | .sign _ :: rest => inRow rest
  | .run run :: rest => atRun run rest ++ inRow rest

/-- The parcel functions that a call is of, if it is made on the parcel. -/
def callees (parcel : List Char) : Application → List Callee
  | .function name first => if first = parcel then (Callee.ofFunction? name).toList else []
  | .method object name => if object = parcel then (Callee.ofMethod? name).toList else []

end Application

/-- The parcel functions that a row of lexemes calls on a parcel. -/
def Callee.inRow (parcel : List Char) (row : List CodeLexeme) : List Callee :=
  (Application.inRow row).flatMap (Application.callees parcel)

/-- A parcel function that is called, inside a number of loops. -/
structure WireCall where
  callee : Callee
  loops : Nat
  deriving DecidableEq

/-- What a block of code is to the calls in it. -/
inductive Block where
  | loop | skipped | plain
  deriving DecidableEq

namespace Block

/-- Whether a row starts with the end of a block. -/
def closes (row : List CodeLexeme) : Bool := row.head? == some (.sign '\x7d')

/-- The block that starts at the end of a row, if one does.  The block that depends on the variable
`skip` alone is left out. -/
def opened? (skip : Option (List Char)) (row : List CodeLexeme) : Option Block :=
  if row.getLast? = some (.sign '\x7b') then
    some <| match row with
      | .run word :: .sign ' ' :: .sign '(' :: rest =>
        if word = ['f', 'o', 'r'] then .loop
        else if word = ['i', 'f'] ∧ ∃ flag ∈ skip, [.run flag, .sign ')'] <+: rest then .skipped
        else .plain
      | _ => .plain
  else none

/-- The calls of rows inside of blocks, innermost first. -/
def calls (skip : Option (List Char)) (parcel : List Char) (blocks : List Block) :
    List (List CodeLexeme) → List WireCall
  | [] => []
  | row :: rest =>
    let around := if closes row then blocks.tail else blocks
    let here :=
      if around = [] ∨ .skipped ∈ around then []
      else (Callee.inRow parcel row).map fun callee => ⟨callee, around.count .loop⟩
    here ++ calls skip parcel ((opened? skip row).toList ++ around) rest

end Block

/-- The parcel functions that the body of a function calls on a parcel.  What depends on the variable
`skip` alone is left out. -/
def wireCalls (skip : Option String) (parcel text : String) : List WireCall :=
  Block.calls (skip.map String.toList) parcel.toList [] (CodeLexeme.rows text.toList)

end Calls

namespace CodeLexeme

theorem rows_append (first second : List Char) :
    rows (first ++ '\n' :: second) = rows first ++ rows second := by
  have split : Text.pieces '\n' (first ++ '\n' :: second) =
      Text.pieces '\n' first ++ Text.pieces '\n' second := by
    simp only [Text.pieces, List.splitOn_eq_splitOnP]
    exact List.splitOnP_append_cons first second (by simp)
  simp only [rows, split, List.map_append, List.filter_append]

@[simp] theorem rows_nil : rows [] = [] := rfl

theorem rows_of_oneLine {line : List Char} (oneLine : '\n' ∉ line) :
    rows line = [ofLine line].filter (· ≠ []) := by
  rw [rows, Text.pieces, List.splitOn_eq_singleton oneLine, List.map_singleton]

/-- Blanks in front of a line are none of its lexemes. -/
theorem rows_blank (text : List Char) : rows (' ' :: text) = rows text := by
  have same : ∀ line, ofLine (' ' :: line) = ofLine line := fun line => rfl
  have split : Text.pieces '\n' (' ' :: text) =
      (Text.pieces '\n' text).modifyHead (' ' :: ·) := by
    simp [Text.pieces, List.splitOn_eq_splitOnP, List.splitOnP_cons_eq_if_modifyHead]
  have nonempty : Text.pieces '\n' text ≠ [] := List.splitOn_ne_nil _ _
  obtain ⟨line, rest, pieces⟩ := List.exists_cons_of_ne_nil nonempty
  rw [rows, rows, split, pieces, List.modifyHead_cons, List.map_cons, List.map_cons, same]

/-- How far a line is indented does not show in its lexemes. -/
theorem rows_indented {indentation : List Char} (blank : ∀ character ∈ indentation, character = ' ')
    (text : List Char) : rows (indentation ++ text) = rows text := by
  induction indentation with
  | nil => rfl
  | cons character rest ih =>
      obtain rfl := blank character (by simp)
      rw [List.cons_append, rows_blank, ih fun other listed => blank other (by simp [listed])]

end CodeLexeme

section Rows

open CodeLexeme

/-- The rows of lines. -/
def rowsOfLines (lines : List String) : List (List CodeLexeme) :=
  lines.flatMap fun line => rows line.toList

theorem rowsOfLines_append (first second : List String) :
    rowsOfLines (first ++ second) = rowsOfLines first ++ rowsOfLines second :=
  List.flatMap_append

mutual

/-- The rows that a step of writing brings. -/
def CodeStep.rows : CodeStep → List (List CodeLexeme)
  | .line text | .opening text | .closing text => CodeLexeme.rows text.toList
  | .blank | .indent | .dedent => []
  | .block text => rowsOfLines (textLines text)
  | .append steps => Code.rows steps

/-- The rows of a piece of code. -/
def Code.rows : List CodeStep → List (List CodeLexeme)
  | [] => []
  | step :: rest => step.rows ++ Code.rows rest

end

theorem Code.rows_append (first second : Code) :
    Code.rows (first ++ second) = Code.rows first ++ Code.rows second := by
  induction first with
  | nil => rfl
  | cons step rest ih => rw [List.cons_append, Code.rows, ih, Code.rows, List.append_assoc]

namespace CodeWriter

variable {writer : CodeWriter}

/-- The rows of what has been written. -/
def rows (writer : CodeWriter) : List (List CodeLexeme) := rowsOfLines writer.lines.toList

/-- One level of indentation is blanks. -/
def Blank (writer : CodeWriter) : Prop := ∀ character ∈ writer.unit.toList, character = ' '

theorem rows_line (blank : writer.Blank) (text : String) :
    (writer.line text).rows = writer.rows ++ CodeLexeme.rows text.toList := by
  have indented : CodeLexeme.rows (if text.isEmpty then "" else
      String.join (List.replicate writer.depth writer.unit) ++ text).toList =
        CodeLexeme.rows text.toList := by
    split
    · rename_i empty
      rw [String.isEmpty_iff.mp empty]
    · rw [String.toList_append]
      apply rows_indented
      intro character inside
      simp only [String.toList_join, List.mem_flatMap, List.mem_replicate] at inside
      obtain ⟨_, ⟨-, rfl⟩, inside⟩ := inside
      exact blank character inside
  simp only [rows, rowsOfLines, line, Array.toList_push, List.flatMap_append, List.flatMap_singleton,
    indented]

theorem rows_blank (writer : CodeWriter) : writer.blank.rows = writer.rows := by
  rw [blank]
  split
  · simp [rows, rowsOfLines]
  · rfl

theorem rows_foldl_line (blank : writer.Blank) (lines : List String) :
    (lines.foldl line writer).rows = writer.rows ++ rowsOfLines lines := by
  induction lines generalizing writer with
  | nil => simp [rowsOfLines]
  | cons text rest ih =>
      rw [List.foldl_cons, @ih (writer.line text) blank, rows_line blank, List.append_assoc]
      rfl

mutual

theorem rows_step (writer : CodeWriter) (blank : writer.Blank) (step : CodeStep) :
    (writer.step step).rows = writer.rows ++ step.rows := by
  cases step with
  | line text => exact rows_line blank text
  | blank => rw [CodeWriter.step, rows_blank, CodeStep.rows, List.append_nil]
  | indent => exact (List.append_nil _).symm
  | dedent => exact (List.append_nil _).symm
  | opening text => exact rows_line blank text
  | closing text => exact @rows_line writer.dedent blank text
  | block text => exact rows_foldl_line blank (textLines text)
  | append steps =>
      have inner := rows_run ⟨#[], 0, writer.unit⟩ blank steps
      rw [CodeWriter.step, CodeWriter.append, ← Array.foldl_toList, CodeStep.rows,
        rows_foldl_line blank]
      exact congrArg (writer.rows ++ ·) inner

theorem rows_run (writer : CodeWriter) (blank : writer.Blank) (code : List CodeStep) :
    (writer.run code).rows = writer.rows ++ Code.rows code := by
  match code with
  | [] => exact (List.append_nil _).symm
  | step :: rest =>
      have kept : (writer.step step).Blank := by rwa [Blank, unit_step]
      rw [run, rows_run (writer.step step) kept rest, rows_step writer blank step, Code.rows,
        List.append_assoc]

end

theorem rows_intercalate (lines : List String) :
    CodeLexeme.rows (String.intercalate "\n" lines ++ "\n").toList = rowsOfLines lines := by
  induction lines with
  | nil => rfl
  | cons line rest ih =>
      have spelled : (String.intercalate "\n" (line :: rest) ++ "\n").toList =
          line.toList ++ '\n' :: if rest = [] then [] else
            (String.intercalate "\n" rest ++ "\n").toList := by
        cases rest with
        | nil => simp
        | cons next others => simp [String.toList_intercalate]
      rw [spelled, rows_append]
      split
      · rename_i last
        rw [last]
        simp [rowsOfLines]
      · rw [ih]
        rfl

/-- Empty lines have no rows. -/
theorem rows_finish (writer : CodeWriter) :
    CodeLexeme.rows writer.finish.toList = writer.rows := by
  have empty : rowsOfLines (writer.lines.toList.reverse.takeWhile String.isEmpty).reverse = [] := by
    apply List.flatMap_eq_nil_iff.mpr
    intro line listed
    have isEmpty := List.all_eq_true.mp List.all_takeWhile line (List.mem_reverse.mp listed)
    rw [String.isEmpty_iff.mp isEmpty]
    rfl
  have whole : writer.lines.toList =
      (writer.lines.toList.reverse.dropWhile String.isEmpty).reverse ++
        (writer.lines.toList.reverse.takeWhile String.isEmpty).reverse := by
    rw [← List.reverse_append, List.takeWhile_append_dropWhile, List.reverse_reverse]
  have split := congrArg rowsOfLines whole
  rw [rowsOfLines_append, empty, List.append_nil] at split
  rw [finish, rows_intercalate, rows, split]

end CodeWriter

/-- The rows of the text of a piece of code are its own rows. -/
theorem Code.rows_text (code : Code) : CodeLexeme.rows (Code.text code).toList = Code.rows code := by
  have blank : CodeWriter.Blank {} := by
    simp [CodeWriter.Blank]
  rw [Code.text, CodeWriter.rows_finish, CodeWriter.rows_run {} blank code]
  rfl

end Rows

end DriverIdl
