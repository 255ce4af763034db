import DriverIdl.Compilation

/-!
# The command line

Arguments become options.  A long name may carry its value behind an equals sign, a short one behind
itself; otherwise values are the arguments that follow and do not look like names.
-/

namespace DriverIdl

/-- Names that take no value. -/
inductive Switch where
  | genC | genCpp | genJava | kernel | genHash | dumpUnits
  deriving DecidableEq, Inhabited

/-- Names that take values. -/
inductive ValueName where
  | compile | outDir | root | buildTarget | moduleName | dumpFormat
  deriving DecidableEq, Inhabited

/-- Why arguments cannot be understood. -/
inductive UsageFault where
  | unexpected (argument : String)
  | missingValue (name : ValueName)
  | unneededValue (argument : String)
  | invalidValue (value : String)
  | repeated
  | noSources
  deriving DecidableEq, Inhabited

/-- The sentence that tells a fault. -/
def UsageFault.message : UsageFault → String
  | .unexpected argument => "unexpected argument " ++ Text.quote argument ++ " found"
  | .missingValue _ => "a value is required for an option but none was supplied"
  | .unneededValue argument => "unexpected value in " ++ Text.quote argument
  | .invalidValue value => "invalid value " ++ Text.quote value
  | .repeated => "an option cannot be used multiple times"
  | .noSources => "the required option --compile was not provided"

/-- What ends the reading of arguments. -/
inductive ArgumentStop where
  | usage (fault : UsageFault)
  | version
  | help
  deriving DecidableEq, Inhabited

/-- An argument by its looks. -/
inductive Argument where
  | separator
  | value
  | switch (switch : Switch)
  | named (name : ValueName) (value : Option String)
  | stop (stop : ArgumentStop)
  deriving DecidableEq, Inhabited

namespace Argument

/-- The switches by their long names. -/
def switches : List (String × Switch) :=
  [("gen-c", .genC), ("gen-cpp", .genCpp), ("gen-java", .genJava), ("kernel", .kernel),
    ("gen-hash", .genHash), ("dump-ast", .dumpUnits)]

/-- The long names that take values. -/
def longNames : List (String × ValueName) :=
  [("compile", .compile), ("out-dir", .outDir), ("root", .root), ("build-target", .buildTarget),
    ("module-name", .moduleName), ("dump-format", .dumpFormat)]

/-- The short names that take values. -/
def shortNames : List (Char × ValueName) := [('c', .compile), ('d', .outDir), ('r', .root)]

/-- Reads an argument with a long name. -/
def ofLong (argument : String) (characters : List Char) : Argument :=
  let name := String.ofList (characters.takeWhile (· != '='))
  let value := match characters.dropWhile (· != '=') with
    | [] => none
    | _ :: text => some (String.ofList text)
  let bare (result : Argument) : Argument :=
    if value.isSome then .stop (.usage (.unneededValue argument)) else result
  match switches.lookup name, longNames.lookup name with
  | some found, _ => bare (.switch found)
  | none, some found => .named found value
  | none, none =>
    if name == "version" then bare (.stop .version)
    else if name == "help" then bare (.stop .help)
    else .stop (.usage (.unexpected argument))

/-- Reads an argument with a short name and what stands behind the name. -/
def ofShort (argument : String) (name : Char) (behind : List Char) : Argument :=
  match shortNames.lookup name with
  | some found =>
    .named found <| match behind with
      | [] => none
      | '=' :: text => some (String.ofList text)
      | text => some (String.ofList text)
  | none =>
    if name == 'V' then .stop .version
    else if name == 'h' then .stop .help
    else .stop (.usage (.unexpected argument))

/-- Reads an argument. -/
def read (argument : String) : Argument :=
  match argument.toList with
  | ['-', '-'] => .separator
  | '-' :: '-' :: characters => ofLong argument characters
  | '-' :: name :: behind => ofShort argument name behind
  | _ => .value

/-- Whether an argument looks like a value. -/
def isValue (argument : String) : Bool := read argument == .value

end Argument

/-- What the arguments say. -/
structure CommandLine where
  sources : List Path := []
  outDir : Option Path := none
  roots : List PackageRoot := []
  switches : List Switch := []
  buildTarget : Option BuildTarget := none
  moduleName : Option String := none
  dumpFormat : Option DumpFormat := none
  deriving Inhabited

namespace CommandLine

/-- Refuses arguments. -/
def refuse {α : Type} (fault : UsageFault) : Except ArgumentStop α := .error (.usage fault)

/-- Keeps a value that may be given once. -/
def once {α : Type} (earlier : Option α) (value : α) : Except ArgumentStop (Option α) :=
  if earlier.isSome then refuse .repeated else .ok (some value)

/-- Reads a value as a path, which is never empty. -/
def pathValue (value : String) : Except ArgumentStop Path :=
  if value.isEmpty then refuse (.invalidValue value) else .ok ⟨value⟩

/-- Reads a value by its own rules. -/
def parsedValue {α : Type} (parse : String → Except OptionTextFault α) (value : String) :
    Except ArgumentStop α :=
  match parse value with
  | .ok parsed => .ok parsed
  | .error _ => refuse (.invalidValue value)

/-- Adds a switch, which may be given once. -/
def addSwitch (line : CommandLine) (switch : Switch) : Except ArgumentStop CommandLine :=
  if line.switches.contains switch then refuse .repeated
  else .ok { line with switches := line.switches ++ [switch] }

/-- Adds a value. -/
def addValue (line : CommandLine) (name : ValueName) (value : String) :
    Except ArgumentStop CommandLine := do
  match name with
  | .compile => return { line with sources := line.sources ++ [← pathValue value] }
  | .root => return { line with roots := line.roots ++ [← parsedValue PackageRoot.parse value] }
  | .outDir => return { line with outDir := ← once line.outDir (← pathValue value) }
  | .buildTarget =>
    return { line with
      buildTarget := ← once line.buildTarget (← parsedValue BuildTarget.parse value) }
  | .moduleName => return { line with moduleName := ← once line.moduleName value }
  | .dumpFormat =>
    return { line with dumpFormat := ← once line.dumpFormat (← parsedValue DumpFormat.parse value) }

/-- The values of a name among the arguments behind it: any number of sources, one of all else. -/
def valuesOf (name : ValueName) (arguments : List String) : List String :=
  if name = .compile then arguments.takeWhile Argument.isValue
  else (arguments.take 1).takeWhile Argument.isValue

/-- Reads arguments one after the other. -/
def readFrom (line : CommandLine) (arguments : List String) : Except ArgumentStop CommandLine := do
  match arguments with
  | [] => return line
  | argument :: rest =>
    match Argument.read argument with
    | .separator =>
      match rest with
      | [] => return line
      | unexpected :: _ => refuse (.unexpected unexpected)
    | .value => refuse (.unexpected argument)
    | .stop stop => throw stop
    | .switch switch => readFrom (← line.addSwitch switch) rest
    | .named name (some value) => readFrom (← line.addValue name value) rest
    | .named name none =>
      let values := valuesOf name rest
      if values.isEmpty then refuse (.missingValue name)
      else
        let more ← values.foldlM (fun line value => line.addValue name value) line
        readFrom more (rest.drop values.length)
termination_by arguments.length
decreasing_by
  all_goals simp only [List.length_cons, List.length_drop]; omega

/-- Reads all arguments; there must be a source. -/
def read (arguments : List String) : Except ArgumentStop CommandLine := do
  let line ← readFrom {} arguments
  if line.sources.isEmpty then refuse .noSources else return line

/-- The options that the arguments make. -/
def options (line : CommandLine) : Except OptionsFault Options := do
  let given (switch : Switch) : Bool := line.switches.contains switch
  let language ← Language.ofFlags (given .genC) (given .genCpp) (given .genJava)
  return ⟨line.sources, line.outDir, line.roots, language, given .kernel,
    line.buildTarget.getD .all, line.moduleName, given .genHash, given .dumpUnits,
    line.dumpFormat.getD .text⟩

/-- What a finished command leaves: its exit code and what it printed. -/
structure Report where
  exitCode : Nat
  output : String := ""
  errors : String := ""
  deriving DecidableEq, Inhabited

/-- Lines with a line feed behind each. -/
def printed (lines : List String) : String := String.join (lines.map (· ++ "\n"))

/-- The report of a failure.  Diagnostics are printed line by line and counted. -/
def failureReport : Failure → Report
  | .compile diagnostics =>
    ⟨1, "", printed (diagnostics.map Diagnostic.text ++
      [toString diagnostics.length ++ " error(s), nothing generated"])⟩
  | failure => ⟨1, "", printed ["error: " ++ failure.message]⟩

/-- The report of a run. -/
def runReport (output : RunOutput) : Report :=
  ⟨0, printed (output.hashes ++ output.dump.toList), ""⟩

/-- The report of arguments that make no run. -/
def stopReport : ArgumentStop → Report
  | .version => ⟨0, printed ["hdi-gen 0.1.0"], ""⟩
  | .help => ⟨0, printed ["Usage: hdi-gen [OPTIONS] --compile <IDL_FILE>..."], ""⟩
  | .usage fault => ⟨2, "", printed ["error: " ++ fault.message]⟩

/-- Carries out a command over a tree of files. -/
def execute (arguments : List String) (tree : FileTree) : Report × FileTree :=
  match read arguments with
  | .error stop => (stopReport stop, tree)
  | .ok line =>
    match line.options with
    | .error fault => (failureReport (.options fault), tree)
    | .ok options =>
      match Run.run options tree with
      | .ok output after => (runReport output, after)
      | .error failure after => (failureReport failure, after)

end CommandLine

end DriverIdl
