import DriverIdl.Emit.Frame.C

/-!
# C: hosts

The driver that hosts a service and routes device requests to its stub, and the skeleton of the
service, of which only the version method is complete.
-/

namespace DriverIdl.CCode

/-- The source file of the driver of an interface. -/
def driver (context : EmitContext) : List GeneratedFile :=
  let base := context.base
  let host := s!"Hdf{base}Host"
  let start := s!"g_{context.localPrefix}DriverEntry"
  let macroName := interfaceMacro context
  let dispatch := Code.function
    [s!"static int32_t {base}DriverDispatch(struct HdfDeviceIoClient *client, int cmdId, struct HdfSBuf *data,",
      "    struct HdfSBuf *reply)"] <|
    Code.line
      s!"struct {host} *host = CONTAINER_OF(client->device->service, struct {host}, ioService);" ++
    Code.refusal "host->service == NULL" "invalid service obj" ["return HDF_ERR_INVALID_OBJECT;"] ++
    Code.blank ++
    Code.line s!"return {base}OnRemoteRequest(host->service, cmdId, data, reply);"
  let init := Code.function
    [s!"static int Hdf{base}DriverInit(struct HdfDeviceObject *deviceObject)"] <|
    Code.logInfo "driver init start" ++ Code.line "return HDF_SUCCESS;"
  let bind := Code.function
    [s!"static int Hdf{base}DriverBind(struct HdfDeviceObject *deviceObject)"] <|
    Code.logInfo "driver bind start" ++
    Code.when (!context.kernel)
      (Code.line
          s!"int32_t ret = HdfDeviceObjectSetInterfaceDesc(deviceObject, {macroName}_INTERFACE_DESC);" ++
        Code.refusal "ret != HDF_SUCCESS" "failed to set interface descriptor of device object"
          ["return ret;"] ++
        Code.blank) ++
    Code.line s!"struct {host} *host = (struct {host} *)OsalMemCalloc(sizeof(struct {host}));" ++
    Code.refusal "host == NULL" s!"create {host} object failed!" ["return HDF_ERR_MALLOC_FAIL;"] ++
    Code.blank ++
    Code.lines [s!"host->ioService.Dispatch = {base}DriverDispatch;",
      "host->ioService.Open = NULL;", "host->ioService.Release = NULL;",
      s!"host->service = {base}ServiceGet();"] ++
    Code.braced "if (host->service == NULL)"
      (Code.line "OsalMemFree(host);" ++ Code.logError "failed to get service object" ++
        Code.line "return HDF_FAILURE;") ++
    Code.blank ++
    Code.lines ["deviceObject->service = &host->ioService;", "return HDF_SUCCESS;"]
  let release := Code.function
    [s!"static void Hdf{base}DriverRelease(struct HdfDeviceObject *deviceObject)"] <|
    Code.logInfo "driver release start" ++
    Code.branch "deviceObject->service == NULL" ["return;"] ++
    Code.blank ++
    Code.line
      s!"struct {host} *host = CONTAINER_OF(deviceObject->service, struct {host}, ioService);" ++
    Code.branch "host != NULL" [s!"{base}ServiceRelease(host->service);", "OsalMemFree(host);"]
  let body :=
    [Code.bracedWith s!"struct {host}"
        (Code.lines ["struct IDeviceIoService ioService;", s!"struct {context.name} *service;"]) ";",
      dispatch, init, bind, release,
      Code.bracedWith s!"struct HdfDriverEntry {start} ="
        (Code.lines [".moduleVersion = 1,", s!".moduleName = \"{context.serviceName}\",",
          s!".Bind = Hdf{base}DriverBind,", s!".Init = Hdf{base}DriverInit,",
          s!".Release = Hdf{base}DriverRelease,"]) ";",
      Code.lines (beginLinkage ++ [s!"HDF_INIT({start});"] ++ endLinkage)]
  [source context (context.baseFile "driver" "c")
    (Code.systemIncludes ["hdf_base.h", "hdf_device_desc.h", "hdf_log.h", "osal_mem.h"] ++
      [Code.includeLine (context.baseFile "stub" "h")])
    (Text.snakeCase base ++ "_driver") (Code.paragraphs body)]

/-- The statements that answer the version; other methods have none. -/
def versionAnswer (macroName : String) (method : Method) : List String :=
  if method.synthesized then
    method.outParameters.map fun parameter =>
      let part := if parameter.name == Method.majorName then "MAJOR" else "MINOR"
      s!"*{parameter.name} = {macroName}_{part}_VERSION;"
  else []

/-- The source file of the service of an interface. -/
def service (context : EmitContext) : Emit (List GeneratedFile) := do
  let name := context.name
  let base := context.base
  let user := !context.kernel
  let methods := (← context.methods).map Prod.snd
  let bodies ← methods.mapM fun method => do
    let parameters ← methodParameters context method
    return Code.function [s!"static int32_t {base}{method.name}({parameters})"] <|
      Code.lines (versionAnswer (interfaceMacro context) method ++ ["return HDF_SUCCESS;"])
  let record := Code.bracedWith s!"struct {base}Service"
    (Code.line s!"struct {base}Stub stub;" ++ Code.blank ++
      Code.line "// please add private data here") ";"
  let get := Code.function [s!"struct {name} *{base}ServiceGet(void)"] <|
    Code.line
      s!"struct {base}Service *service = (struct {base}Service *)OsalMemCalloc(sizeof(struct {base}Service));" ++
    Code.refusal "service == NULL" s!"malloc {base}Service obj failed!" ["return NULL;"] ++
    Code.blank ++
    Code.when user
      (Code.refusal s!"!{base}StubConstruct(&service->stub)" s!"construct {base}Stub obj failed!"
          ["OsalMemFree(service);", "return NULL;"] ++
        Code.blank) ++
    Code.lines (methods.map fun method =>
      s!"service->stub.interface.{method.name} = {base}{method.name};") ++
    Code.line "return &service->stub.interface;"
  let release := Code.function [s!"void {base}ServiceRelease(struct {name} *instance)"] <|
    Code.branch "instance == NULL" ["return;"] ++
    Code.line s!"struct {base}Service *service = (struct {base}Service *)instance;" ++
    Code.when user (Code.line s!"{base}StubRelease(&service->stub);") ++
    Code.line "OsalMemFree(service);"
  return [source context (context.baseFile "service" "c")
    (Code.systemIncludes ["hdf_base.h", "hdf_log.h", "osal_mem.h", "securec.h"] ++
      [Code.includeLine (context.baseFile "stub" "h")])
    (Text.snakeCase base ++ "_service") (Code.paragraphs (record :: bodies ++ [get, release]))]

end DriverIdl.CCode
