import DriverIdl.Emit.Frame.Cpp

/-!
# C++: declarations

What both sides of a connection include.  The header of a unit of types defines these types, and its
source file holds, for every struct, the functions that write it into a parcel and read it back.  The
header of an interface holds its command numbers and the class that both sides derive from.
-/

namespace DriverIdl.CppCode

/-- The fields of a struct or union. -/
def fields (context : EmitContext) (record : RecordType) : Code :=
  Code.lines <| record.members.map fun member =>
    let type := typeName context member.type
    s!"{type} {member.name};"

/-- The definition of a type. -/
def definition (context : EmitContext) : TypeNode → Code
  | .enum declared =>
    let base := primitiveType declared.base
    let values := declared.members.map fun member =>
      let literal := enumLiteral member.value
      s!"{member.name} = {literal},"
    Code.bracedWith s!"enum {declared.name} : {base}" (Code.lines values) ";"
  | .struct record =>
    Code.bracedWith s!"struct {record.name}" (fields context record)
      " __attribute__ ((aligned(8)));"
  | .union record =>
    Code.bracedWith s!"union {record.name}" (fields context record)
      " __attribute__ ((aligned(8)));"
  | _ => []

/-- The declarations of the functions of a struct. -/
def functionDeclarations (record : RecordType) : Code :=
  let name := record.name
  Code.paragraphs
    [Code.line
        s!"bool {name}BlockMarshalling(OHOS::MessageParcel &data, const {name}& dataBlock);",
      Code.line s!"bool {name}BlockUnmarshalling(OHOS::MessageParcel &data, {name}& dataBlock);"]

/-- The function that writes a struct. -/
def marshalling (context : EmitContext) (record : RecordType) : Code :=
  let name := record.name
  Code.function
    [s!"bool {name}BlockMarshalling(OHOS::MessageParcel& data, const {name}& dataBlock)"] <|
    Code.paragraphs (record.members.map fun member =>
      write context "return false;" "data" member.type s!"dataBlock.{member.name}") ++
    Code.line "return true;"

/-- The function that reads a struct. -/
def unmarshalling (context : EmitContext) (record : RecordType) : Code :=
  let name := record.name
  Code.function
    [s!"bool {name}BlockUnmarshalling(OHOS::MessageParcel& data, {name}& dataBlock)"] <|
    Code.paragraphs (record.members.map fun member =>
      read context "return false;" "data" member.type s!"dataBlock.{member.name}") ++
    Code.line "return true;"

/-- The functions of a struct. -/
def functions (context : EmitContext) (record : RecordType) : Code :=
  Code.paragraphs [marshalling context record, unmarshalling context record]

/-- The files of the types that a unit declares. -/
def customTypes (context : EmitContext) : List GeneratedFile :=
  let headerName := headerFile context.unit
  let records := context.structs
  let preamble := Code.lines
    (Code.systemIncludes ["cstdbool", "cstdint", "map", "string", "vector", "message_parcel.h"] ++
      context.allImports.map (includeOf context))
  [header context headerName preamble
      (Code.paragraphs
          (Code.line "using namespace OHOS;" :: context.customTypes.map (definition context)) ++
        records.flatMap functionDeclarations),
    source context (Text.lowercase context.name ++ ".cpp")
      (Code.includeLine headerName :: Code.systemIncludes ["hdf_base.h", "hdf_log.h", "securec.h"])
      (Text.snakeCase context.name) (records.flatMap (functions context))]

/-- The declaration of a method.  The version method has a body already. -/
def methodDeclaration (context : EmitContext) (method : Method) : Code :=
  let parameters := methodParameters context method
  let signature := s!"virtual int32_t {method.name}({parameters})"
  if method.synthesized then
    Code.function [signature] <|
      Code.lines (method.outParameters.map fun parameter =>
        let part := if parameter.name == Method.majorName then "MAJOR" else "MINOR"
        s!"{parameter.name} = {part}_VERSION;") ++
      Code.line "return HDF_SUCCESS;"
  else Code.line s!"{signature} = 0;"

/-- The header of an interface. -/
def interfaceHeader (context : EmitContext) : Emit (List GeneratedFile) := do
  let name := context.name
  let version := context.unit.version
  let methods ← context.methods
  let commands := methods.map fun (id, method) =>
    let command := context.commandName method
    s!"{command} = {id},"
  let called := !context.isCallback
  let preamble :=
    Code.lines (Code.systemIncludes ["stdint.h", "map", "string", "vector", "hdf_base.h", "hdi_base.h"] ++
      context.allImports.map (includeOf context)) ++
    Code.blank ++
    Code.lines ["#ifndef HDI_BUFF_MAX_SIZE", "#define HDI_BUFF_MAX_SIZE (1024 * 200)", "#endif"]
  let members :=
    [Code.line s!"DECLARE_HDI_DESCRIPTOR(u\"{context.unit.fullName}\");",
      Code.lines [s!"static constexpr uint32_t MAJOR_VERSION = {version.major};",
        s!"static constexpr uint32_t MINOR_VERSION = {version.minor};"],
      Code.line s!"virtual ~{name}() = default;",
      Code.when called (Code.line s!"static sptr<{name}> Get();"),
      Code.when called (Code.line s!"static sptr<{name}> Get(const std::string &serviceName);"),
      Code.line s!"static sptr<{name}> CastFrom(const sptr<IRemoteObject> &remote);"] ++
    methods.map fun (_, method) => methodDeclaration context method
  return [header context (headerFile context.unit) preamble
    (Code.paragraphs
      [Code.lines ["using namespace OHOS;", "using namespace OHOS::HDI;"],
        Code.bracedWith s!"enum {context.base}Cmd" (Code.lines commands) ";",
        classDefinition s!"{name} : public HdiBase"
          (Code.paragraphs members ++
            Code.function ["virtual bool IsProxy()"] (Code.line "return false;")) []])]

end DriverIdl.CppCode
