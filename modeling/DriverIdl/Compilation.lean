import DriverIdl.Dump.Basic
import DriverIdl.Emit.Render
import DriverIdl.FileTree.Change
import DriverIdl.Parsing.SourceFile
import DriverIdl.Resolution
import DriverIdl.Sha256

/-!
# Runs

A run finds its units, compiles them in order, prints them if asked to and writes the generated code.
Nothing is written unless every unit compiles.
-/

namespace DriverIdl

/-- Compiles the units of a run.  The faults of all units are collected. -/
def compile (options : Options) (tree : FileTree) : Except Failure Program := do
  let resolution ← Resolution.resolve options tree
  let (program, diagnostics) := resolution.paths.foldl
    (fun (program, diagnostics) path =>
      let outcome := Program.parseFile options program diagnostics path (tree.readText path)
      (outcome.program, outcome.diagnostics))
    (({} : Program), ([] : List Diagnostic))
  if diagnostics.isEmpty then return program else throw (.compile diagnostics)

/-- The hash of the bytes of a file. -/
def hashFile (tree : FileTree) (path : Path) : Except Failure String :=
  match tree.read path with
  | .ok contents => .ok (Sha256.hexHash contents)
  | .error fault => .error (.read path fault)

/-- A line with the hash of each source, in order. -/
def hashSources (options : Options) (tree : FileTree) : Except Failure (List String) :=
  options.sources.mapM fun path => do
    return path.text ++ ":" ++ (← hashFile tree path)

/-- The files of a unit in the chosen language. -/
def renderUnit (options : Options) (program : Program) (unit : CompiledUnit) :
    Except Failure (List GeneratedFile) :=
  match options.language with
  | none => .error (.options .noLanguage)
  | some language =>
    match program.render options language unit with
    | .ok files => .ok files
    | .error fault => .error (.generate fault)

/-- A run over a tree of files, which it may change even if it fails. -/
abbrev Run := EStateM Failure FileTree

namespace Run

/-- Does what does not change the tree. -/
def inspect {α : Type} (action : FileTree → Except Failure α) : Run α := fun tree =>
  match action tree with
  | .ok value => .ok value tree
  | .error failure => .error failure tree

/-- Changes the tree at a path. -/
def change (path : Path) (action : FileChange Unit) : Run Unit := fun tree =>
  match action tree with
  | .ok () after => .ok () after
  | .error fault after => .error (.write path fault) after

/-- Writes files into a directory, which is made if it is missing; gives their paths. -/
def writeFiles (directory : Path) (files : List GeneratedFile) : Run (List Path) := do
  change directory (FileChange.ensureDirectories directory)
  files.mapM fun file => do
    let path := directory.join ⟨file.name⟩
    change path (FileChange.write path file.contents.toUTF8)
    return path

/-- Writes the code of a unit below the output directory. -/
def generateUnit (options : Options) (program : Program) (outDir : Path) (unit : CompiledUnit) :
    Run (List Path) := do
  let files ← inspect fun _ => renderUnit options program unit
  if files.isEmpty then return []
  else writeFiles (outDir.join (Package.path unit.package)) files

/-- Writes the code of all units. -/
def generate (options : Options) (program : Program) : Run (List Path) :=
  match options.outDir with
  | none => throw (.options .noOutput)
  | some outDir => do
    return (← program.units.toList.mapM (generateUnit options program outDir)).flatten

end Run

/-- What a run gives to its caller. -/
structure RunOutput where
  hashes : List String := []
  dump : Option String := none
  written : List Path := []
  deriving DecidableEq, Inhabited

/-- Checks the options and carries out what they ask for. -/
def Run.run (options : Options) : Run RunOutput := do
  inspect fun _ => options.validate.mapError Failure.options
  if options.genHash then
    return { hashes := ← inspect (hashSources options) }
  let program ← inspect (compile options)
  let dump := if options.dumpUnits then some (Dump.text options.dumpFormat program) else none
  let written ← if options.generates then generate options program else pure []
  return { dump := dump, written := written }

end DriverIdl
