import DriverIdl.Emit.CodeWriter

/-!
# Pieces of code

What generated code is composed of: lines, blocks between braces, paragraphs, and the lines that all
files for the driver framework share.
-/

namespace DriverIdl

namespace Code

/-- One line. -/
def line (text : String) : Code := [.line text]

/-- Lines in order. -/
def lines (texts : List String) : Code := texts.map CodeStep.line

/-- An empty line, unless there is one already. -/
def blank : Code := [.blank]

/-- Code between braces behind a head, with a mark behind the closing brace. -/
def bracedWith (head : String) (body : Code) (mark : String) : Code :=
  [.opening (head ++ " \x7b")] ++ body ++ [.closing ("\x7d" ++ mark)]

/-- Code between braces behind a head. -/
def braced (head : String) (body : Code) : Code := bracedWith head body ""

/-- A function: its signature, and its body between braces on lines of their own. -/
def function (signature : List String) (body : Code) : Code :=
  lines signature ++ [.opening "\x7b"] ++ body ++ [.closing "\x7d"]

/-- A label, one level out. -/
def label (name : String) : Code := [.dedent, .line (name ++ ":"), .indent]

/-- Code that depends on a condition. -/
def when (condition : Bool) (code : Code) : Code := if condition then code else []

/-- Pieces of code with an empty line behind each; empty pieces are left out. -/
def paragraphs (pieces : List Code) : Code :=
  pieces.flatMap fun piece => if piece.isEmpty then [] else piece ++ blank

/-- The line that includes a file by its name. -/
def includeLine (file : String) : String := s!"#include \"{file}\""

/-- The lines that include system headers. -/
def systemIncludes (files : List String) : List String :=
  files.map fun file => s!"#include <{file}>"

/-- The lines that keep a header from being included twice. -/
def includeGuard (guard : String) : Code :=
  lines [s!"#ifndef {guard}", s!"#define {guard}"] ++ blank

/-- The tag of log messages. -/
def logTag (tag : String) : Code := blank ++ line s!"#define HDF_LOG_TAG    {tag}" ++ blank

/-- The line that logs an error of the running function. -/
def logError (message : String) : Code :=
  line ("HDF_LOGE(\"%\x7bpublic\x7ds: " ++ message ++ "\", __func__);")

/-- The line that logs progress of the running function. -/
def logInfo (message : String) : Code :=
  line ("HDF_LOGI(\"%\x7bpublic\x7ds: " ++ message ++ "\", __func__);")

/-- Statements that are carried out if a condition holds. -/
def branch (condition : String) (statements : List String) : Code :=
  braced s!"if ({condition})" (lines statements)

/-- Code between braces, and code behind it between braces that a second head opens. -/
def bracedTwice (head : String) (first : Code) (middle : String) (second : Code) : Code :=
  [.opening (head ++ " \x7b")] ++ first ++ [.closing ("\x7d " ++ middle ++ " \x7b"), .indent] ++
    second ++ [.closing "\x7d"]

/-- Logs an error and carries out statements if a condition holds. -/
def refusal (condition message : String) (statements : List String) : Code :=
  braced s!"if ({condition})" (logError message ++ lines statements)

end Code

end DriverIdl
