import DriverIdl.Emit.Artifact
import DriverIdl.Emit.Pieces
import DriverIdl.Text.Replace

/-!
# Rendering units

What all target languages share: the unit that is rendered with its surroundings, and why a unit
cannot be rendered.
-/

namespace DriverIdl

/-- Why code cannot be generated. -/
inductive GenerateFault where
  | noInterface (fullName : String)
  | unsupportedInC (spelling : String)
  | noLength (expression : String)
  | unionInJava (name : String)
  | queueInJava
  | artifactInJava (artifact : Artifact)
  deriving DecidableEq, Inhabited

/-- The sentence that tells a fault. -/
def GenerateFault.message : GenerateFault → String
  | .noInterface fullName => fullName ++ " declares no interface"
  | .unsupportedInC spelling => Text.quote spelling ++ " is not supported in C"
  | .noLength expression => "no length for " ++ expression
  | .unionInJava name => "union " ++ name ++ " has no Java mapping"
  | .queueInJava => "SharedMemQueue has no Java mapping"
  | .artifactInJava artifact => artifact.name ++ " is not generated for Java"

/-- Rendering, which may fail. -/
abbrev Emit := Except GenerateFault

/-- A rendered file, named relative to the directory of its package. -/
structure GeneratedFile where
  name : String
  contents : String
  deriving DecidableEq, Inhabited

/-- A file of code. -/
def GeneratedFile.ofCode (name : String) (code : Code) : GeneratedFile := ⟨name, code.text⟩

/-- A unit that is rendered, with the program it belongs to and the options of the run. -/
structure EmitContext where
  options : Options
  program : Program
  unit : CompiledUnit
  deriving Inhabited

namespace EmitContext

/-- The types of the program. -/
def types (context : EmitContext) : TypeArena := context.program.types

/-- Whether the build is for a kernel. -/
def kernel (context : EmitContext) : Bool := context.options.kernel

/-- The name of the unit. -/
def name (context : EmitContext) : String := context.unit.name

/-- The interface of the unit. -/
def interface (context : EmitContext) : Emit InterfaceType :=
  match context.program.interfaceOf? context.unit with
  | some interface => return interface
  | none => throw (.noInterface context.unit.fullName)

/-- The name of the unit without the `I` of an interface. -/
def base (context : EmitContext) : String := Text.baseName context.unit.name

/-- The methods of this build with their command numbers.  Numbers count all declared methods, so
hiding some never renumbers the others. -/
def methods (context : EmitContext) : Emit (List (Nat × Method)) := do
  let interface ← context.interface
  return interface.commands.filter fun (_, method) => method.attributes.visible context.kernel

/-- The declared types of this build, in order. -/
def customTypes (context : EmitContext) : List TypeNode :=
  (context.unit.definitions.map context.types.node).filter fun node =>
    node.attributes.visible context.kernel

/-- The structs of this build, in order. -/
def structs (context : EmitContext) : List RecordType :=
  context.customTypes.filterMap fun
    | .struct record => some record
    | _ => none

/-- The imported units, sequenceables included. -/
def allImports (context : EmitContext) : List CompiledUnit :=
  context.unit.imports.filterMap fun (_, id) => context.program.units[id]?

/-- The imported units that have code of their own. -/
def imports (context : EmitContext) : List CompiledUnit :=
  context.allImports.filter fun unit => unit.kind != .sequenceable

/-- Whether the unit is a callback. -/
def isCallback (context : EmitContext) : Bool := context.unit.kind == .callback

/-- The name that the driver registers and clients bind to. -/
def serviceName (context : EmitContext) : String :=
  context.options.moduleName.getD (Text.snakeCase context.base ++ "_service")

/-- The constant of a command. -/
def commandName (context : EmitContext) (method : Method) : String :=
  "CMD_" ++ Text.upperSnake context.base ++ "_" ++ Text.upperSnake method.name

/-- What the names of generated local variables start with. -/
def localPrefix (context : EmitContext) : String := Text.lowerCamel context.base

/-- The name of a file for the interface in a role. -/
def baseFile (context : EmitContext) (role extension : String) : String :=
  Text.snakeCase context.base ++ "_" ++ role ++ "." ++ extension

end EmitContext

/-- Code for each of some items, in order. -/
def Code.forEach {α : Type} (items : List α) (code : α → Emit Code) : Emit Code := do
  return (← items.mapM code).flatten

/-- The license comment of a unit. -/
def Code.license (unit : CompiledUnit) : Code :=
  match unit.license with
  | some text => [.block text, .blank]
  | none => []

/-- The last word of an expression, which the names of temporaries start with. -/
def lastWord (expression : String) : String :=
  let word := ((expression.toList.reverse.dropWhile fun character => !isWordChar character).takeWhile
    isWordChar).reverse
  if word.isEmpty then "tmp" else String.ofList word

/-- The macro that guards a header. -/
def guardMacro (package file : String) : String :=
  Text.uppercase (Text.replaceChar '.' '_' package) ++ "_" ++
    Text.uppercase (Text.replaceChar '.' '_' file)

/-- The literal of an enum value.  Values above the signed 64-bit range need a suffix. -/
def enumLiteral (value : Int) : String :=
  if IntShape.i64.greatest < value then toString value ++ "ULL" else toString value

end DriverIdl
