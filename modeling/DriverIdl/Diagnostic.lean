import DriverIdl.FileTree.Fault
import DriverIdl.Options
import DriverIdl.Token.Basic

/-!
# Diagnostics

Errors in source files do not stop a run: each one is recorded with its place, and all of them are
reported at the end.  A diagnostic holds the cause; its kind and its sentence follow from that.
-/

namespace DriverIdl

/-- The four families of source errors. -/
inductive DiagnosticKind where
  | lexical | syntactic | semantic | structural
  deriving DecidableEq, Inhabited

/-- The name of a family. -/
def DiagnosticKind.text : DiagnosticKind → String
  | .lexical => "lexical"
  | .syntactic => "syntax"
  | .semantic => "semantic"
  | .structural => "structural"

/-- Why the target language cannot express a type. -/
inductive SupportFault where
  | mapInC
  | queueInC
  | sequenceableInC (name : String)
  | nestedContainerInC (spelling : String)
  | descriptorInKernel
  | interfaceInKernel (name : String)
  | unionInJava (name : String)
  | queueInJava
  | callbackInJava (name : String)
  deriving DecidableEq, Inhabited

/-- The sentence that tells a fault. -/
def SupportFault.message : SupportFault → String
  | .mapInC => "Map is not supported in C"
  | .queueInC => "SharedMemQueue is not supported in C"
  | .sequenceableInC name => "sequenceable " ++ Text.quote name ++ " is not supported in C"
  | .nestedContainerInC spelling =>
    "nested container " ++ Text.quote spelling ++ " is not supported in C"
  | .descriptorInKernel => "FileDescriptor is not supported in kernel mode"
  | .interfaceInKernel name =>
    "interface " ++ Text.quote name ++ " cannot be passed in kernel mode"
  | .unionInJava name => "union " ++ Text.quote name ++ " is not supported in Java"
  | .queueInJava => "SharedMemQueue is not supported in Java"
  | .callbackInJava name => "callback interface " ++ Text.quote name ++ " is not supported in Java"

/-- What is wrong in a source file. -/
inductive SourceFault where
  | unterminatedComment
  | unrecognizedCharacter (text : String)
  | expected (what : String) (found : Token)
  | misplacedHeader (found : Token)
  | package (fault : Package.Fault)
  | placement (fault : PlacementFault)
  | importedTwice (fullName : String)
  | notCompiled (fullName : String)
  | sequenceablePackage (fullName : String)
  | repeatedAttribute (found : Token)
  | unknownAttribute (found : Token)
  | exclusiveAttributes
  | queueElement (spelling : String)
  | unknownType (name : String)
  | interfaceElement (name : String)
  | support (fault : SupportFault)
  | repeatedType (name : String)
  | misappliedAttribute (declaration : String)
  | enumBase (spelling : String)
  | enumRange (value : Int) (name base : String)
  | repeatedEnumMember (name : String)
  | emptyEnum (name : String)
  | invalidNumber (text : String)
  | unknownEnumMember (name : String)
  | repeatedMember (name : String)
  | emptyRecord (declaration name : String)
  | interfaceMember (name declaration : String)
  | secondInterface
  | interfaceFile (name : String)
  | reservedMethod (name : String)
  | repeatedMethod (name : String)
  | emptyInterface (name : String)
  | callbackMethod
  | repeatedParameter (name : String)
  | onewayResult (method parameter : String)
  | callbackDirection (name : String)
  | interfaceDirection (name : String)
  | typesBesideInterface
  | emptyFile
  | recursiveNesting (name : String)
  | unionMember (member union spelling : String)
  | unreadable (fault : FileFault)
  deriving Inhabited

namespace SourceFault

/-- The family of a fault. -/
def kind : SourceFault → DiagnosticKind
  | .unterminatedComment | .unrecognizedCharacter _ => .lexical
  | .expected _ _ | .misplacedHeader _ => .syntactic
  | .secondInterface | .emptyInterface _ | .typesBesideInterface | .emptyFile | .unreadable _ =>
    .structural
  | _ => .semantic

/-- The sentence that tells a fault. -/
def message : SourceFault → String
  | .unterminatedComment => "unterminated block comment"
  | .unrecognizedCharacter text => "unrecognized character " ++ Text.quote text
  | .expected what found => "expected " ++ what ++ " but found " ++ found.describe
  | .misplacedHeader found => found.describe ++ " must come before every declaration"
  | .package fault => fault.message
  | .placement fault => fault.message
  | .importedTwice fullName => Text.quote fullName ++ " is imported twice"
  | .notCompiled fullName => "imported unit " ++ Text.quote fullName ++ " has not been compiled"
  | .sequenceablePackage fullName => "sequenceable " ++ Text.quote fullName ++ " needs a package"
  | .repeatedAttribute found => "attribute " ++ found.describe ++ " is repeated"
  | .unknownAttribute found => "unknown attribute " ++ found.describe
  | .exclusiveAttributes => "attributes \"full\" and \"lite\" are mutually exclusive"
  | .queueElement spelling =>
    "SharedMemQueue elements must be plain data, " ++ Text.quote spelling ++ " is not"
  | .unknownType name => "unknown type " ++ Text.quote name
  | .interfaceElement name =>
    "interface " ++ Text.quote name ++ " cannot be a container element"
  | .support fault => fault.message
  | .repeatedType name => "type " ++ Text.quote name ++ " is declared twice"
  | .misappliedAttribute declaration =>
    "only \"full\" and \"lite\" may be applied to " ++ declaration ++ " declarations"
  | .enumBase spelling =>
    "enum base type must be an integer type, not " ++ Text.quote spelling
  | .enumRange value name base =>
    "value " ++ toString value ++ " of " ++ Text.quote name ++ " does not fit in " ++ base
  | .repeatedEnumMember name => "enum member " ++ Text.quote name ++ " is declared twice"
  | .emptyEnum name => "enum " ++ Text.quote name ++ " has no members"
  | .invalidNumber text => "invalid number " ++ Text.quote text
  | .unknownEnumMember name => Text.quote name ++ " does not name an earlier enum member"
  | .repeatedMember name => "member " ++ Text.quote name ++ " is declared twice"
  | .emptyRecord declaration name => declaration ++ " " ++ Text.quote name ++ " has no members"
  | .interfaceMember name declaration =>
    "interface " ++ Text.quote name ++ " cannot be a " ++ declaration ++ " member"
  | .secondInterface => "a file may declare only one interface"
  | .interfaceFile name =>
    "interface " ++ Text.quote name ++ " must be declared in a file named " ++ name ++ ".idl"
  | .reservedMethod name => Text.quote name ++ " is reserved"
  | .repeatedMethod name => "method " ++ Text.quote name ++ " is declared twice"
  | .emptyInterface name => "interface " ++ Text.quote name ++ " declares no methods"
  | .callbackMethod => "\"callback\" cannot be applied to a method"
  | .repeatedParameter name => "parameter " ++ Text.quote name ++ " is declared twice"
  | .onewayResult method parameter =>
    "oneway method " ++ Text.quote method ++ " cannot have out parameter " ++ Text.quote parameter
  | .callbackDirection name =>
    "callback interface " ++ Text.quote name ++ " can only be an in parameter"
  | .interfaceDirection name => "interface " ++ Text.quote name ++ " can only be an out parameter"
  | .typesBesideInterface =>
    "an interface file cannot declare custom types, move them to a types file"
  | .emptyFile => "the file declares neither an interface nor any custom type"
  | .recursiveNesting name => "recursive nesting of " ++ Text.quote name ++ " is not allowed"
  | .unionMember member union spelling =>
    "union member " ++ Text.quote member ++ " of " ++ Text.quote union ++
      " must be plain data, " ++ Text.quote spelling ++ " is not"
  | .unreadable fault => "cannot read file: " ++ fault.message

end SourceFault

/-- A fault at a place of a file. -/
structure Diagnostic where
  file : Path
  place : Position
  fault : SourceFault
  deriving Inhabited

namespace Diagnostic

/-- The family of a diagnostic. -/
def kind (diagnostic : Diagnostic) : DiagnosticKind := diagnostic.fault.kind

/-- The sentence of a diagnostic without its place. -/
def message (diagnostic : Diagnostic) : String := diagnostic.fault.message

/-- A diagnostic as it is reported. -/
def text (diagnostic : Diagnostic) : String :=
  diagnostic.file.text ++ ":" ++ toString diagnostic.place.line ++ ":" ++
    toString diagnostic.place.column ++ ": " ++ diagnostic.kind.text ++ " error: " ++
    diagnostic.message

end Diagnostic

end DriverIdl
