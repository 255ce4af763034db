import DriverIdl.Emit.Frame.C

/-!
# C: proxies

The client side of an interface: a function table whose functions write their arguments into a
request, dispatch it and read the results from the reply.
-/

namespace DriverIdl.CCode

/-- The function that dispatches a request. -/
def proxyCall (context : EmitContext) : Code :=
  let base := context.base
  Code.function
    [s!"static int32_t {base}ProxyCall(struct {context.name} *self, int32_t id, struct HdfSBuf *data,",
      "    struct HdfSBuf *reply, bool isOneWay)"] <|
    if context.kernel then
      Code.lines ["(void)isOneWay;",
        s!"struct HdfIoService *serv = CONTAINER_OF(self, struct {base}Proxy, impl)->serv;"] ++
      Code.refusal "serv == NULL || serv->dispatcher == NULL || serv->dispatcher->Dispatch == NULL"
        "invalid HdfIoService object" ["return HDF_ERR_INVALID_OBJECT;"] ++
      Code.line "return serv->dispatcher->Dispatch(&serv->object, id, data, reply);"
    else
      Code.lines ["struct HdfRemoteService *remote = self->AsObject(self);",
        "if (remote == NULL || remote->dispatcher == NULL || remote->dispatcher->Dispatch == NULL ||"] ++
      Code.braced "    remote->dispatcher->DispatchAsync == NULL)"
        (Code.logError "invalid HdfRemoteService object" ++
          Code.line "return HDF_ERR_INVALID_OBJECT;") ++
      Code.branch "isOneWay" ["return remote->dispatcher->DispatchAsync(remote, id, data, reply);"] ++
      Code.line "return remote->dispatcher->Dispatch(remote, id, data, reply);"

/-- The value of an argument. -/
def argumentValue (types : TypeArena) (parameter : Parameter) : String :=
  match types.node parameter.type with
  | .struct _ | .union _ => "*" ++ parameter.name
  | _ => parameter.name

/-- The capacity that the caller gives for a result. -/
def capacityValue (types : TypeArena) (parameter : Parameter) : String :=
  match types.node parameter.type with
  | .primitive .string => s!"{parameter.name}Len"
  | _ => s!"*{parameter.name}Len"

/-- Reads a result from a reply into the storage of the caller.  Strings and sequences go to buffers
of the caller and are checked against the capacities of these. -/
def readResult (types : TypeArena) (recovery : Recovery) (reply : String) (parameter : Parameter) :
    Emit Code :=
  let name := parameter.name
  match types.node parameter.type with
  | .primitive .string =>
    return Code.line s!"const char *{name}Copy = HdfSbufReadString({reply});" ++
      leaveIf recovery s!"{name}Copy == NULL" s!"read {name}" ++
      leaveIf recovery s!"strcpy_s({name}, {name}Len, {name}Copy) != EOK" s!"copy {name}"
  | .array element | .list element => do
    let length := s!"*{name}Len"
    let elements ← readElements types recovery reply element name length
    return Code.line s!"uint32_t {name}Cap = {length};" ++
      leaveIf recovery s!"!HdfSbufReadUint32({reply}, {name}Len)" s!"read {name} size" ++
      leaveIf recovery s!"{length} > {name}Cap" s!"check {name} size" ++ elements
  | _ => read types recovery reply parameter.type s!"*{name}" none

/-- Announces the capacities of the results. -/
def writeCapacities (types : TypeArena) (recovery : Recovery) (data : String) (method : Method) :
    Code :=
  leaveIf recovery s!"!HdfSbufWriteInt8({data}, 1)" "write flag of memory setting" ++
    (types.capacityParameters method).flatMap fun parameter =>
      let capacity := capacityValue types parameter
      leaveIf recovery s!"!HdfSbufWriteUint32({data}, {capacity})"
        s!"write {parameter.name} capacity"

/-- The function of a method. -/
def proxyMethod (context : EmitContext) (method : Method) : Emit Code := do
  let types := context.types
  let interface ← context.interface
  let base := context.base
  let data := s!"{context.localPrefix}Data"
  let reply := s!"{context.localPrefix}Reply"
  let result := s!"{context.localPrefix}Ret"
  let recovery : Recovery := .jump (some result) "FINISHED"
  let obtain := if context.kernel then "HdfSbufObtainDefaultSize()" else "HdfSbufTypedObtain(SBUF_IPC)"
  let command := context.commandName method
  let oneway := interface.isOneway method
  let parameters ← methodParameters context method
  let arguments ← method.inParameters.mapM fun parameter =>
    write types recovery data parameter.type (argumentValue types parameter)
      (some s!"{parameter.name}Len")
  let results ← method.outParameters.mapM (readResult types recovery reply)
  return Code.function [s!"static int32_t {base}Proxy{method.name}({parameters})"] <|
    Code.paragraphs
      ([Code.line s!"int32_t {result} = HDF_FAILURE;",
        Code.lines [s!"struct HdfSBuf *{data} = {obtain};", s!"struct HdfSBuf *{reply} = {obtain};"],
        leaveIfWith recovery s!"{data} == NULL || {reply} == NULL" "HdfSubf malloc"
          "HDF_ERR_MALLOC_FAIL",
        leaveIfWith recovery "self == NULL" "check self" "HDF_ERR_INVALID_OBJECT",
        Code.when (!context.kernel)
          (leaveIf recovery
            s!"!HdfRemoteServiceWriteInterfaceToken(self->AsObject(self), {data})"
            "write interface token"),
        Code.when (types.needsCapacityFlag method) (writeCapacities types recovery data method)] ++
      arguments ++
      [Code.line s!"{result} = {base}ProxyCall(self, {command}, {data}, {reply}, {oneway});" ++
        Code.branch s!"{result} != HDF_SUCCESS"
          [s!"HDF_LOGE(\"%\x7bpublic\x7ds: call failed! error code is %\x7bpublic\x7dd\", __func__, {result});",
            "goto FINISHED;"]] ++
      results) ++
    Code.label "FINISHED" ++
    Code.branch s!"{data} != NULL" [s!"HdfSbufRecycle({data});"] ++
    Code.branch s!"{reply} != NULL" [s!"HdfSbufRecycle({reply});"] ++
    Code.line s!"return {result};"

/-- The function that gives the remote object of a proxy. -/
def proxyAsObject (context : EmitContext) : Code :=
  let base := context.base
  Code.function [s!"static struct HdfRemoteService *{base}ProxyAsObject(struct {context.name} *self)"] <|
    Code.branch "self == NULL" ["return NULL;"] ++
    Code.lines [s!"struct {base}Proxy *proxy = CONTAINER_OF(self, struct {base}Proxy, impl);",
      "return proxy->remote;"]

/-- The function that fills the function table. -/
def proxyConstruct (context : EmitContext) (methods : List Method) : Code :=
  let base := context.base
  Code.function [s!"static void {base}ProxyConstruct(struct {context.name} *impl)"] <|
    Code.lines (methods.map fun method => s!"impl->{method.name} = {base}Proxy{method.name};") ++
    Code.when (!context.kernel) (Code.line s!"impl->AsObject = {base}ProxyAsObject;")

/-- Gives the client, unless the service has another major version or an older minor version. -/
def checkVersion (context : EmitContext) : Code :=
  let name := context.name
  let macroName := interfaceMacro context
  let result := s!"{context.localPrefix}Ret"
  Code.lines ["uint32_t serMajorVer = 0;", "uint32_t serMinorVer = 0;",
    s!"int32_t {result} = client->GetVersion(client, &serMajorVer, &serMinorVer);"] ++
  Code.refusal s!"{result} != HDF_SUCCESS" "get version failed!"
    [s!"{name}Release(client);", "return NULL;"] ++
  Code.blank ++
  Code.branch s!"serMajorVer != {macroName}_MAJOR_VERSION || serMinorVer < {macroName}_MINOR_VERSION"
    ["HDF_LOGE(\"%\x7bpublic\x7ds:check version failed! version of service:%u.%u, version of client:%u.%u\", __func__,",
      s!"    serMajorVer, serMinorVer, {macroName}_MAJOR_VERSION, {macroName}_MINOR_VERSION);",
      s!"{name}Release(client);", "return NULL;"] ++
  Code.blank ++
  Code.line "return client;"

/-- Makes a proxy over a connection, which is recycled if there is no memory. -/
def makeProxy (context : EmitContext) (connection recycle : String) : Code :=
  let base := context.base
  Code.line
    s!"struct {base}Proxy *proxy = (struct {base}Proxy *)OsalMemCalloc(sizeof(struct {base}Proxy));" ++
  Code.refusal "proxy == NULL" "malloc proxy failed!"
    [s!"{recycle}({connection});", "return NULL;"] ++
  Code.blank ++
  Code.lines [s!"proxy->{connection} = {connection};", s!"{base}ProxyConstruct(&proxy->impl);",
    s!"struct {context.name} *client = &proxy->impl;"] ++
  Code.blank ++
  checkVersion context

/-- The function that releases a proxy. -/
def proxyRelease (context : EmitContext) (connection recycle : String) : Code :=
  let base := context.base
  let name := context.name
  Code.function [s!"void {name}Release(struct {name} *instance)"] <|
    Code.branch "instance == NULL" ["return;"] ++
    Code.lines [s!"struct {base}Proxy *proxy = CONTAINER_OF(instance, struct {base}Proxy, impl);",
      s!"{recycle}(proxy->{connection});", "OsalMemFree(proxy);"]

/-- The functions of a kernel build that clients start with. -/
def kernelStart (context : EmitContext) : List Code :=
  let name := context.name
  [Code.function [s!"struct {name} *{name}GetInstance(const char *serviceName)"] <|
      Code.line "struct HdfIoService *serv = HdfIoServiceBind(serviceName);" ++
      Code.refusal "serv == NULL" "failed to get io service!" ["return NULL;"] ++
      Code.blank ++
      makeProxy context "serv" "HdfIoServiceRecycle",
    proxyRelease context "serv" "HdfIoServiceRecycle"]

/-- The function of a user build that looks a service up by its name. -/
def lookUpService (context : EmitContext) : Code :=
  let name := context.name
  let macroName := interfaceMacro context
  Code.function [s!"struct {name} *{name}GetInstance(const char *serviceName)"] <|
    Code.line "struct HDIServiceManager *serviceMgr = HDIServiceManagerGet();" ++
    Code.refusal "serviceMgr == NULL" "HDIServiceManager not found!" ["return NULL;"] ++
    Code.blank ++
    Code.lines
      ["struct HdfRemoteService *remote = serviceMgr->GetService(serviceMgr, serviceName);",
        "HDIServiceManagerRelease(serviceMgr);"] ++
    Code.refusal "remote == NULL" "failed to get remote!" ["return NULL;"] ++
    Code.blank ++
    Code.refusal s!"!HdfRemoteServiceSetInterfaceDesc(remote, {macroName}_INTERFACE_DESC)"
      "set interface token failed!" ["HdfRemoteServiceRecycle(remote);", "return NULL;"] ++
    Code.blank ++
    Code.line s!"return {name}GetFromRemote(remote);"

/-- The functions of a user build that clients start with. -/
def userStart (context : EmitContext) : List Code :=
  let name := context.name
  [Code.when (!context.isCallback) (lookUpService context),
    Code.function [s!"struct {name} *{name}GetFromRemote(struct HdfRemoteService *remote)"] <|
      Code.refusal "remote == NULL" "remote is null" ["return NULL;"] ++
      Code.blank ++
      makeProxy context "remote" "HdfRemoteServiceRecycle",
    proxyRelease context "remote" "HdfRemoteServiceRecycle"]

/-- The source file of the proxy of an interface. -/
def proxy (context : EmitContext) : Emit (List GeneratedFile) := do
  let name := context.name
  let base := context.base
  let methods := (← context.methods).map Prod.snd
  let bodies ← methods.mapM (proxyMethod context)
  let connection :=
    if context.kernel then "struct HdfIoService *serv;" else "struct HdfRemoteService *remote;"
  let runtime :=
    if context.kernel then ["hdf_io_service_if.h"] else ["hdf_remote_service.h", "servmgr_hdi.h"]
  let record := Code.bracedWith s!"struct {base}Proxy"
    (Code.lines [s!"struct {name} impl;", connection]) ";"
  let get := Code.when (!context.isCallback) <|
    Code.function [s!"struct {name} *{name}Get(void)"]
      (Code.line s!"return {name}GetInstance(\"{context.serviceName}\");")
  return [source context (context.baseFile "proxy" "c")
    (Code.systemIncludes (["hdf_base.h", "hdf_log.h", "hdf_sbuf.h", "osal_mem.h", "securec.h"] ++ runtime) ++
      [Code.includeLine (headerFile context.unit)])
    (Text.snakeCase base ++ "_proxy")
    (Code.paragraphs
      ([record, proxyCall context] ++ bodies ++
        [Code.when (!context.kernel) (proxyAsObject context), proxyConstruct context methods, get] ++
        if context.kernel then kernelStart context else userStart context))]

end DriverIdl.CCode
