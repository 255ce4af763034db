import DriverIdl.Emit.Frame.Cpp

/-!
# C++: hosts

The driver that hosts a service behind its stub and hands requests over as parcels, and the skeleton
of the service, which inherits the version method.
-/

namespace DriverIdl.CppCode

/-- The source file of the driver of an interface. -/
def driver (context : EmitContext) : List GeneratedFile :=
  let base := context.base
  let record := s!"Hdf{base}Host"
  let host := s!"{context.localPrefix}Host"
  let start := s!"g_{context.localPrefix}DriverEntry"
  let scope := qualifiedNamespace context context.unit.namespaceId
  let dispatch := Code.function
    [s!"static int32_t {base}DriverDispatch(struct HdfDeviceIoClient *client, int cmdId, struct HdfSBuf *data,",
      "    struct HdfSBuf *reply)"] <|
    Code.paragraphs
      [Code.line
          s!"auto *{host} = CONTAINER_OF(client->device->service, struct {record}, ioService);",
        Code.lines ["OHOS::MessageParcel *dataParcel = nullptr;",
          "OHOS::MessageParcel *replyParcel = nullptr;", "OHOS::MessageOption option;"],
        Code.refusal "SbufToParcel(data, &dataParcel) != HDF_SUCCESS"
            "invalid data sbuf object to dispatch" [invalidParameter] ++
          Code.refusal "SbufToParcel(reply, &replyParcel) != HDF_SUCCESS"
            "invalid reply sbuf object to dispatch" [invalidParameter]] ++
    Code.line s!"return {host}->stub->SendRequest(cmdId, *dataParcel, *replyParcel, option);"
  let init := Code.function
    [s!"static int {base}DriverInit(struct HdfDeviceObject *deviceObject)"] <|
    Code.logInfo "driver init start" ++ Code.line "return HDF_SUCCESS;"
  let bind := Code.function
    [s!"static int {base}DriverBind(struct HdfDeviceObject *deviceObject)"] <|
    Code.paragraphs
      [Code.logInfo "driver bind start" ++
          Code.line s!"auto *{host} = new (std::nothrow) {record};" ++
          Code.refusal s!"{host} == nullptr" s!"failed to create {record} object"
            ["return HDF_FAILURE;"],
        Code.lines [s!"{host}->ioService.Dispatch = {base}DriverDispatch;",
          s!"{host}->ioService.Open = NULL;", s!"{host}->ioService.Release = NULL;"],
        Code.line s!"auto serviceImpl = new (std::nothrow) {base}Service();" ++
          Code.refusal "serviceImpl == nullptr" "failed to create service implement"
            [s!"delete {host};", "return HDF_FAILURE;"],
        Code.line s!"{host}->stub = new (std::nothrow) {base}Stub(serviceImpl);" ++
          Code.refusal s!"{host}->stub == nullptr" "failed to create stub object"
            [s!"delete {host};", "return HDF_FAILURE;"]] ++
    Code.lines [s!"deviceObject->service = &{host}->ioService;", "return HDF_SUCCESS;"]
  let release := Code.function
    [s!"static void {base}DriverRelease(struct HdfDeviceObject *deviceObject)"] <|
    Code.logInfo "driver release start" ++
    Code.branch "deviceObject->service == nullptr" ["return;"] ++
    Code.blank ++
    Code.lines
      [s!"auto *{host} = CONTAINER_OF(deviceObject->service, struct {record}, ioService);",
        s!"delete {host};"]
  let body :=
    [Code.line s!"using namespace {scope};",
      Code.bracedWith s!"struct {record}"
        (Code.lines ["struct IDeviceIoService ioService;",
          "OHOS::sptr<OHOS::IRemoteObject> stub;"]) ";",
      dispatch, init, bind, release,
      Code.bracedWith s!"struct HdfDriverEntry {start} ="
        (Code.lines [".moduleVersion = 1,", s!".moduleName = \"{context.serviceName}\",",
          s!".Bind = {base}DriverBind,", s!".Init = {base}DriverInit,",
          s!".Release = {base}DriverRelease,"]) ";",
      Code.lines ["#ifdef __cplusplus", "extern \"C\" \x7b", "#endif", s!"HDF_INIT({start});",
        "#ifdef __cplusplus", "\x7d", "#endif"]]
  [.ofCode (context.baseFile "driver" "cpp") <|
    Code.license context.unit ++
    Code.lines
      (Code.systemIncludes ["hdf_base.h", "hdf_device_desc.h", "hdf_log.h", "hdf_sbuf_ipc.h"] ++
        [Code.includeLine (context.baseFile "service" "h"), Code.includeLine (context.baseFile "stub" "h")]) ++
    Code.logTag (Text.snakeCase base ++ "_driver") ++
    Code.paragraphs body]

/-- The files of the service of an interface. -/
def service (context : EmitContext) : Emit (List GeneratedFile) := do
  let name := context.name
  let service := s!"{context.base}Service"
  let methods := ((← context.methods).map Prod.snd).filter fun method => !method.synthesized
  let declarations := methods.map fun method =>
    let parameters := methodParameters context method
    Code.line s!"int32_t {method.name}({parameters}) override;"
  let bodies := methods.map fun method =>
    let parameters := methodParameters context method
    Code.function [s!"int32_t {service}::{method.name}({parameters})"]
      (Code.line "return HDF_SUCCESS;")
  let headerName := context.baseFile "service" "h"
  return [header context headerName (Code.line (Code.includeLine (headerFile context.unit)))
      (classDefinition s!"{service} : public {name}"
        (Code.paragraphs
          (Code.lines [s!"{service}() = default;", s!"virtual ~{service}() = default;"] ::
            declarations)) []),
    source context (context.baseFile "service" "cpp")
      (Code.includeLine headerName :: Code.systemIncludes ["hdf_base.h"])
      (Text.snakeCase context.base ++ "_service")
      (Code.paragraphs
        (Code.function [s!"extern \"C\" {name} *{context.base}ImplGetInstance(void)"]
            (Code.line s!"return new (std::nothrow) {service}();") :: bodies))]

end DriverIdl.CppCode
