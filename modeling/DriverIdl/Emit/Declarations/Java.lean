import DriverIdl.Emit.Frame.Java

/-!
# Java: declarations

What a client uses.  A unit of types is one class, and its enums and structs are nested in it.  An
interface holds its descriptor, its version, its command numbers and its methods.
-/

namespace DriverIdl.JavaCode

/-- An enum value as Java spells it.  Values of an unsigned type wrap to the signed type of the same
width, so the bits on the wire stay. -/
def enumValue (base : Primitive) (value : Int) : String :=
  match base with
  | .uint => toString (Int.bmod value UInt32.size)
  | .ulong => toString (Int.bmod value UInt64.size) ++ "L"
  | .int => toString value
  | .long => toString value ++ "L"
  | narrow =>
    let type := primitiveType false narrow
    s!"({type}) {value}"

/-- The class of an enum. -/
def enumClass (declared : EnumType) : Code :=
  let name := declared.name
  let base := primitiveType false declared.base
  let spelled := declared.members.map fun member =>
    let value := enumValue declared.base member.value
    s!"{member.name}({value})"
  let constants := match spelled.getLast? with
    | some last => (spelled.dropLast.map (· ++ ",")) ++ [last ++ ";"]
    | none => [";"]
  Code.braced s!"public enum {name}" <|
    Code.paragraphs
      [Code.lines constants,
        Code.line s!"private final {base} value;",
        Code.braced s!"{name}({base} value)" (Code.line "this.value = value;"),
        Code.braced s!"public {base} getValue()" (Code.line "return value;")] ++
    Code.braced s!"public static {name} fromValue({base} value)"
      (Code.braced s!"for ({name} item : values())"
          (Code.branch "item.value == value" ["return item;"]) ++
        Code.line "return null;")

/-- The class of a struct. -/
def structClass (context : EmitContext) (record : RecordType) : Emit Code := do
  let fields ← record.members.mapM (fieldDeclaration context)
  let writes ← Code.forEach record.members fun member =>
    write context "data" member.type s!"this.{member.name}"
  let reads ← Code.forEach record.members fun member =>
    read context "return false;" "data" member.type s!"this.{member.name}"
  return Code.braced s!"public static final class {record.name} implements Sequenceable" <|
    Code.lines fields ++ Code.blank ++
    Code.line "@Override" ++
    Code.braced "public boolean marshalling(Parcel data)" (writes ++ Code.line "return true;") ++
    Code.blank ++
    Code.line "@Override" ++
    Code.braced "public boolean unmarshalling(Parcel data)" (reads ++ Code.line "return true;")

/-- The class of a declared type behind an empty line. -/
def nestedClass (context : EmitContext) : TypeNode → Emit Code
  | .enum declared => return Code.blank ++ enumClass declared
  | .struct record => return Code.blank ++ (← structClass context record)
  | _ => return []

/-- The file of the types that a unit declares. -/
def customTypes (context : EmitContext) : Emit (List GeneratedFile) := do
  let name := context.name
  let imports := context.structs.flatMap fun record =>
    ["ohos.utils.Parcel", "ohos.utils.Sequenceable"] ++
      record.members.flatMap fun member => mentioned context member.type
  let classes ← Code.forEach context.customTypes (nestedClass context)
  return [file context name imports <|
    Code.braced s!"public final class {name}" <|
      Code.line "private static final int HDI_BUFF_MAX_SIZE = 1024 * 200;" ++ Code.blank ++
      Code.braced s!"private {name}()" [] ++ classes]

/-- The file of an interface. -/
def interfaceFile (context : EmitContext) : Emit (List GeneratedFile) := do
  let version := context.unit.version
  let methods ← context.methods
  let signatures ← Code.forEach methods fun (_, method) => do
    return Code.blank ++ Code.line ((← signature context method) ++ ";")
  let commands := methods.map fun (id, method) =>
    let command := context.commandName method
    s!"int {command} = {id};"
  return [file context context.name
    (["ohos.rpc.IRemoteBroker", "ohos.rpc.RemoteException"] ++
      mentionedByMethods context (methods.map Prod.snd)) <|
    Code.braced s!"public interface {context.name} extends IRemoteBroker" <|
      Code.paragraphs
        [Code.line s!"String DESCRIPTOR = \"{context.unit.fullName}\";",
          Code.lines [s!"int MAJOR_VERSION = {version.major};",
            s!"int MINOR_VERSION = {version.minor};"]] ++
      Code.lines commands ++ signatures]

end DriverIdl.JavaCode
