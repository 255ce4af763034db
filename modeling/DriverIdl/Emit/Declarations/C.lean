import DriverIdl.Emit.Frame.C

/-!
# C: declarations

What both sides of a connection include.  The header of a unit of types defines these types, and its
source file holds, for every struct, the functions that write it into a buffer, read it back and
release what it owns.  The header of an interface holds its descriptor, its version, its command
numbers and its function table.
-/

namespace DriverIdl.CCode

/-- The fields of a struct or union. -/
def fields (types : TypeArena) (record : RecordType) : Emit Code := do
  let declarations ← record.members.mapM (memberDeclarations types)
  return Code.lines declarations.flatten

/-- The definition of a type. -/
def definition (types : TypeArena) : TypeNode → Emit Code
  | .enum declared =>
    let values := declared.members.map fun member =>
      let literal := enumLiteral member.value
      s!"{member.name} = {literal},"
    return Code.bracedWith s!"enum {declared.name}" (Code.lines values) ";"
  | .struct record => do
    let body ← fields types record
    return Code.bracedWith s!"struct {record.name}" body " __attribute__ ((aligned(8)));"
  | .union record => do
    let body ← fields types record
    return Code.bracedWith s!"union {record.name}" body " __attribute__ ((aligned(8)));"
  | _ => return []

/-- The signature of the function that writes a struct. -/
def marshallingSignature (name : String) : String :=
  s!"bool {name}BlockMarshalling(struct HdfSBuf *data, const struct {name} *dataBlock)"

/-- The signature of the function that reads a struct. -/
def unmarshallingSignature (name : String) : String :=
  s!"bool {name}BlockUnmarshalling(struct HdfSBuf *data, struct {name} *dataBlock)"

/-- The signature of the function that releases what a struct owns. -/
def releaseSignature (name : String) : String :=
  s!"void {name}Free(struct {name} *dataBlock, bool freeSelf)"

/-- The declarations of the functions of a struct. -/
def functionDeclarations (record : RecordType) : Code :=
  Code.paragraphs
    [Code.line (marshallingSignature record.name ++ ";"),
      Code.line (unmarshallingSignature record.name ++ ";"),
      Code.line (releaseSignature record.name ++ ";")]

/-- The expressions of a member of the struct at hand and of its length. -/
def memberExpressions (member : Member) : String × String :=
  (s!"dataBlock->{member.name}", s!"dataBlock->{member.name}Len")

/-- Leaves if the buffer or the struct is missing. -/
def checkBlock : Code :=
  Code.refusal "data == NULL || dataBlock == NULL" "invalid data or dataBlock" ["return false;"]

/-- The function that writes a struct. -/
def marshalling (types : TypeArena) (record : RecordType) : Emit Code := do
  let members ← record.members.mapM fun member =>
    let (value, length) := memberExpressions member
    write types .returnFalse "data" member.type value (some length)
  return Code.function [marshallingSignature record.name] <|
    Code.paragraphs (checkBlock :: members) ++ Code.line "return true;"

/-- The function that reads a struct.  What was read before a failure is released. -/
def unmarshalling (types : TypeArena) (record : RecordType) : Emit Code := do
  let name := record.name
  let ownsMemory := record.members.any fun member => owns types member.type
  let recovery : Recovery := if ownsMemory then .jump none "ERRORS" else .returnFalse
  let members ← record.members.mapM fun member =>
    let (target, length) := memberExpressions member
    read types recovery "data" member.type target (some length)
  let clear := Code.branch
    s!"memset_s(dataBlock, sizeof(struct {name}), 0, sizeof(struct {name})) != EOK"
    ["return false;"]
  return Code.function [unmarshallingSignature name] <|
    Code.paragraphs ((checkBlock ++ clear) :: members) ++ Code.line "return true;" ++
    Code.when ownsMemory
      (Code.label "ERRORS" ++ Code.lines [s!"{name}Free(dataBlock, false);", "return false;"])

/-- The function that releases what a struct owns. -/
def releasing (types : TypeArena) (record : RecordType) : Emit Code := do
  let owning := record.members.filter fun member => owns types member.type
  let members ← owning.mapM fun member =>
    let (target, length) := memberExpressions member
    release types member.type target (some length)
  return Code.function [releaseSignature record.name] <|
    Code.paragraphs (Code.branch "dataBlock == NULL" ["return;"] :: members) ++
    Code.branch "freeSelf" ["OsalMemFree(dataBlock);"]

/-- The functions of a struct. -/
def functions (types : TypeArena) (record : RecordType) : Emit Code := do
  return Code.paragraphs
    [← marshalling types record, ← unmarshalling types record, ← releasing types record]

/-- The files of the types that a unit declares. -/
def customTypes (context : EmitContext) : Emit (List GeneratedFile) := do
  let types := context.types
  let records := context.structs
  let definitions ← context.customTypes.mapM (definition types)
  let usesDescriptors := records.any fun record =>
    record.members.any fun member => usesDescriptor types member.type
  let headerFile := headerFile context.unit
  let stem := Text.snakeCase context.name
  let declarations := header context headerFile
    (Code.systemIncludes ["stdbool.h", "stdint.h"] ++ context.imports.map (includeOf context))
    (Code.paragraphs (Code.line "struct HdfSBuf;" :: definitions) ++
      records.flatMap functionDeclarations)
  let bodies ← Code.forEach records (functions types)
  return [declarations, source context (stem ++ ".c")
    (Code.includeLine headerFile ::
      Code.systemIncludes (["hdf_base.h", "hdf_log.h", "hdf_sbuf.h", "osal_mem.h", "securec.h"] ++
        if usesDescriptors then ["unistd.h"] else []))
    stem bodies]

/-- The header of an interface. -/
def interfaceHeader (context : EmitContext) : Emit (List GeneratedFile) := do
  let name := context.name
  let macroName := interfaceMacro context
  let version := context.unit.version
  let methods ← context.methods
  let commands := methods.map fun (id, method) =>
    let command := context.commandName method
    s!"{command} = {id},"
  let slots ← methods.mapM fun (_, method) => do
    let parameters ← methodParameters context method
    return Code.line s!"int32_t (*{method.name})({parameters});"
  let user := !context.kernel
  let body :=
    [Code.when user (Code.line "struct HdfRemoteService;"),
      Code.line s!"#define {macroName}_INTERFACE_DESC \"{context.unit.fullName}\"",
      Code.lines [s!"#define {macroName}_MAJOR_VERSION {version.major}",
        s!"#define {macroName}_MINOR_VERSION {version.minor}"],
      Code.bracedWith s!"enum {context.base}Cmd" (Code.lines commands) ";",
      Code.bracedWith s!"struct {name}"
        (Code.paragraphs slots ++ Code.when user
          (Code.line s!"struct HdfRemoteService* (*AsObject)(struct {name} *self);")) ";",
      Code.when (!context.isCallback) (Code.line s!"struct {name} *{name}Get(void);"),
      Code.when (context.kernel || !context.isCallback)
        (Code.line s!"struct {name} *{name}GetInstance(const char *serviceName);"),
      Code.when user
        (Code.line s!"struct {name} *{name}GetFromRemote(struct HdfRemoteService *remote);"),
      Code.line s!"void {name}Release(struct {name} *instance);"]
  return [header context (headerFile context.unit)
    (Code.systemIncludes ["stdbool.h", "stdint.h"] ++ context.imports.map (includeOf context))
    (Code.paragraphs body)]

end DriverIdl.CCode
