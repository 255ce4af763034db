import DriverIdl.Emit.Frame.C

/-!
# C: stubs

The server side of an interface: functions that read a request, call the implementation and write
the reply.
-/

namespace DriverIdl.CCode

/-- The signature of the function that serves a request. -/
def requestSignature (context : EmitContext) : String :=
  s!"int32_t {context.base}OnRemoteRequest(struct {context.name} *serviceImpl, int code, struct HdfSBuf *data, struct HdfSBuf *reply)"

/-- The header of a stub. -/
def stubHeader (context : EmitContext) : GeneratedFile :=
  let name := context.name
  let base := context.base
  let user := !context.kernel
  let body :=
    [Code.line "struct HdfSBuf;",
      Code.bracedWith s!"struct {base}Stub"
        (Code.line s!"struct {name} interface;" ++ Code.when user
          (Code.lines ["struct HdfRemoteService *remote;",
            "struct HdfRemoteDispatcher dispatcher;"])) ";",
      Code.when user (Code.line s!"bool {base}StubConstruct(struct {base}Stub *stub);"),
      Code.when user (Code.line s!"void {base}StubRelease(struct {base}Stub *stub);"),
      Code.line (requestSignature context ++ ";"),
      Code.line s!"struct {name} *{base}ServiceGet(void);",
      Code.line s!"void {base}ServiceRelease(struct {name} *instance);"]
  header context (context.baseFile "stub" "h")
    (Code.includeLine (headerFile context.unit) ::
      if user then Code.systemIncludes ["hdf_remote_service.h"] else [])
    (Code.paragraphs body)

/-- The local variables that hold a parameter. -/
def localVariables (types : TypeArena) (parameter : Parameter) : Emit (List String) := do
  let name := parameter.name
  let type ← typeName types parameter.type
  return match types.node parameter.type with
    | .array _ | .list _ => [s!"{type} {name} = NULL;", s!"uint32_t {name}Len = 0;"]
    | .primitive .string =>
      s!"char* {name} = NULL;" :: if parameter.isOut then [s!"uint32_t {name}Len = 0;"] else []
    | .primitive .boolean => [s!"bool {name} = false;"]
    | .primitive .fileDescriptor => [s!"int {name} = -1;"]
    | .primitive _ | .enum _ => [s!"{type} {name} = 0;"]
    | .struct _ | .union _ => [s!"{type} {name} = \x7b0\x7d;"]
    | .interface _ => [s!"{type} {name} = NULL;"]
    | .map _ _ | .sequenceable _ | .queue _ => []

/-- What a parameter is passed as to the implementation. -/
def callArguments (types : TypeArena) (parameter : Parameter) : List String :=
  let name := parameter.name
  match parameter.direction, types.node parameter.type with
  | .inward, .array _ | .inward, .list _ => [name, s!"{name}Len"]
  | .inward, .struct _ | .inward, .union _ => [s!"&{name}"]
  | .inward, _ => [name]
  | .outward, .array _ | .outward, .list _ => [name, s!"&{name}Len"]
  | .outward, .primitive .string => [name, s!"{name}Len"]
  | .outward, _ => [s!"&{name}"]

/-- The type that the capacity of a result counts: bytes of a string, elements of a sequence. -/
def capacityUnit (types : TypeArena) (parameter : Parameter) : Emit String :=
  match types.element? parameter.type with
  | some element => typeName types element
  | none => return "char"

/-- Reads the capacities that the caller announced, or takes the largest ones. -/
def readCapacities (types : TypeArena) (recovery : Recovery) (data flag : String)
    (method : Method) : Emit (List Code) := do
  let parameters := types.capacityParameters method
  let largest ← parameters.mapM fun parameter => do
    let unit ← capacityUnit types parameter
    return s!"{parameter.name}Len = HDI_BUFF_MAX_SIZE / sizeof({unit});"
  return [leaveIf recovery s!"!HdfSbufReadInt8({data}, (int8_t *)&{flag})"
      "read flag of memory setting",
    Code.bracedTwice s!"if ({flag})"
      (parameters.flatMap fun parameter =>
        leaveIf recovery s!"!HdfSbufReadUint32({data}, &{parameter.name}Len)"
          s!"read {parameter.name} capacity")
      "else" (Code.lines largest)]

/-- Allocates the buffer of a string or sequence that is a result. -/
def allocateResult (types : TypeArena) (recovery : Recovery) (parameter : Parameter) :
    Emit Code := do
  let name := parameter.name
  let unit ← capacityUnit types parameter
  let allocate := Code.line s!"{name} = ({unit}*)OsalMemCalloc(sizeof({unit}) * ({name}Len));" ++
    leaveIfWith recovery s!"{name} == NULL" s!"malloc {name}" "HDF_ERR_MALLOC_FAIL"
  let check := s!"check {name} capacity"
  return match types.element? parameter.type with
    | none => leaveIf recovery s!"{name}Len == 0 || {name}Len > HDI_BUFF_MAX_SIZE" check ++ allocate
    | some _ => leaveIf recovery s!"{name}Len > HDI_BUFF_MAX_SIZE / sizeof({unit})" check ++
      Code.braced s!"if ({name}Len > 0)" allocate

/-- The function that serves a method. -/
def stubMethod (context : EmitContext) (method : Method) : Emit Code := do
  let types := context.types
  let name := method.name
  let data := s!"{context.localPrefix}Data"
  let reply := s!"{context.localPrefix}Reply"
  let result := s!"{context.localPrefix}Ret"
  let flag := s!"{context.localPrefix}MemSet"
  let recovery : Recovery := .jump (some result) "FINISHED"
  let needsFlag := types.needsCapacityFlag method
  let holders ← method.parameters.mapM (localVariables types)
  let capacities ← if needsFlag then readCapacities types recovery data flag method else pure []
  let arguments ← method.inParameters.mapM fun parameter =>
    read types recovery data parameter.type parameter.name (some s!"{parameter.name}Len")
  let buffers ← (types.capacityParameters method).mapM (allocateResult types recovery)
  let results ← method.outParameters.mapM fun parameter =>
    write types recovery reply parameter.type parameter.name (some s!"{parameter.name}Len")
  let releases ← Code.forEach (method.parameters.filter fun parameter => owns types parameter.type)
    fun parameter => release types parameter.type parameter.name (some s!"{parameter.name}Len")
  let passed := String.intercalate ", "
    ("serviceImpl" :: method.parameters.flatMap (callArguments types))
  return Code.function
    [s!"static int32_t SerStub{name}(struct {context.name} *serviceImpl, struct HdfSBuf *{data}, struct HdfSBuf *{reply})"] <|
    Code.paragraphs
      ([Code.line s!"int32_t {result} = HDF_FAILURE;" ++
          Code.when needsFlag (Code.line s!"bool {flag} = false;") ++
          Code.lines holders.flatten] ++
        capacities ++ arguments ++ buffers ++
        [leaveIfWith recovery s!"serviceImpl == NULL || serviceImpl->{name} == NULL"
            "check serviceImpl" "HDF_ERR_INVALID_OBJECT",
          Code.line s!"{result} = serviceImpl->{name}({passed});" ++
            Code.branch s!"{result} != HDF_SUCCESS"
              [s!"HDF_LOGE(\"%\x7bpublic\x7ds: call {name} failed, error code is %\x7bpublic\x7dd\", __func__, {result});",
                "goto FINISHED;"]] ++
        results) ++
    Code.label "FINISHED" ++ releases ++ Code.line s!"return {result};"

/-- The function that serves a request. -/
def serveRequest (context : EmitContext) (methods : List Method) : Code :=
  let base := context.base
  let cases : Code := methods.flatMap fun method =>
    let command := context.commandName method
    [.opening s!"case {command}:", .line s!"return SerStub{method.name}(serviceImpl, data, reply);",
      .dedent]
  Code.function [requestSignature context] <|
    Code.when (!context.kernel)
      (Code.line s!"struct {base}Stub *stub = (struct {base}Stub *)serviceImpl;" ++
        Code.refusal "stub == NULL || stub->remote == NULL" "invalid stub object"
          ["return HDF_ERR_INVALID_OBJECT;"] ++
        Code.refusal "!HdfRemoteServiceCheckInterfaceToken(stub->remote, data)"
          "interface token check failed" ["return HDF_ERR_INVALID_PARAM;"] ++
        Code.blank) ++
    Code.braced "switch (code)"
      (cases ++ Code.braced "default:"
        (Code.lines
          ["HDF_LOGE(\"%\x7bpublic\x7ds: not support cmd %\x7bpublic\x7dd\", __func__, code);",
            "return HDF_ERR_INVALID_PARAM;"]))

/-- The functions of a user build that bind a stub to its remote object. -/
def stubObject (context : EmitContext) : List Code :=
  let name := context.name
  let base := context.base
  let macroName := interfaceMacro context
  [Code.function [s!"static struct HdfRemoteService *{base}StubAsObject(struct {name} *self)"] <|
      Code.branch "self == NULL" ["return NULL;"] ++
      Code.lines [s!"struct {base}Stub *stub = (struct {base}Stub *)self;", "return stub->remote;"],
    Code.function
      [s!"static int32_t {base}StubDispatch(struct HdfRemoteService *remote, int code, struct HdfSBuf *data,",
        "    struct HdfSBuf *reply)"] <|
      Code.line s!"struct {base}Stub *stub = (struct {base}Stub *)remote->target;" ++
      Code.refusal "stub == NULL" "invalid stub object" ["return HDF_ERR_INVALID_OBJECT;"] ++
      Code.line s!"return {base}OnRemoteRequest(&stub->interface, code, data, reply);",
    Code.function [s!"bool {base}StubConstruct(struct {base}Stub *stub)"] <|
      Code.refusal "stub == NULL" "stub is null!" ["return false;"] ++
      Code.blank ++
      Code.lines [s!"stub->dispatcher.Dispatch = {base}StubDispatch;",
        "stub->remote = HdfRemoteServiceObtain((struct HdfObject *)stub, &stub->dispatcher);"] ++
      Code.refusal "stub->remote == NULL" "failed to obtain remote service!" ["return false;"] ++
      Code.blank ++
      Code.refusal s!"!HdfRemoteServiceSetInterfaceDesc(stub->remote, {macroName}_INTERFACE_DESC)"
        "failed to set interface descriptor!"
        ["HdfRemoteServiceRecycle(stub->remote);", "stub->remote = NULL;", "return false;"] ++
      Code.blank ++
      Code.lines [s!"stub->interface.AsObject = {base}StubAsObject;", "return true;"],
    Code.function [s!"void {base}StubRelease(struct {base}Stub *stub)"] <|
      Code.branch "stub == NULL || stub->remote == NULL" ["return;"] ++
      Code.lines ["HdfRemoteServiceRecycle(stub->remote);", "stub->remote = NULL;"]]

/-- The files of the stub of an interface. -/
def stub (context : EmitContext) : Emit (List GeneratedFile) := do
  let types := context.types
  let methods := (← context.methods).map Prod.snd
  let bodies ← methods.mapM (stubMethod context)
  let usesDescriptors := methods.any fun method =>
    method.parameters.any fun parameter => usesDescriptor types parameter.type
  return [stubHeader context, source context (context.baseFile "stub" "c")
    (Code.systemIncludes (["hdf_base.h", "hdf_log.h", "hdf_sbuf.h", "osal_mem.h", "securec.h"] ++
        if usesDescriptors then ["unistd.h"] else []) ++
      [Code.includeLine (context.baseFile "stub" "h")])
    (Text.snakeCase context.base ++ "_stub")
    (Code.paragraphs
      (bodies ++ [serveRequest context methods] ++
        if context.kernel then [] else stubObject context))]

end DriverIdl.CCode
