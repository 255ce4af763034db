import DriverIdl.Emit.Frame.Cpp

/-!
# C++: proxies

The client side of an interface: a class whose methods write their arguments into a request, send it
and read the results from the reply.
-/

namespace DriverIdl.CppCode

/-- The header of a proxy. -/
def proxyHeader (context : EmitContext) (methods : List Method) : GeneratedFile :=
  let name := context.name
  let proxy := s!"{context.base}Proxy"
  let declarations := methods.map fun method =>
    let parameters := methodParameters context method
    Code.line s!"int32_t {method.name}({parameters}) override;"
  header context (context.baseFile "proxy" "h")
    (Code.lines (Code.includeLine (headerFile context.unit) :: Code.systemIncludes ["iproxy_broker.h"]))
    (classDefinition s!"{proxy} : public IProxyBroker<{name}>"
      (Code.paragraphs
        ([Code.line
            s!"explicit {proxy}(const sptr<IRemoteObject>& remote) : IProxyBroker<{name}>(remote) \x7b\x7d",
          Code.line s!"virtual ~{proxy}() = default;"] ++
          declarations ++
          [Code.function ["bool IsProxy() override"] (Code.line "return true;")]))
      (Code.line s!"static inline BrokerDelegator<{proxy}> delegator_;"))

/-- The functions that look a service up by its name. -/
def lookUpService (context : EmitContext) : List Code :=
  let name := context.name
  [Code.function [s!"sptr<{name}> {name}::Get()"]
      (Code.line s!"return {name}::Get(\"{context.serviceName}\");"),
    Code.function [s!"sptr<{name}> {name}::Get(const std::string& serviceName)"] <|
      Code.line "auto servMgr = OHOS::HDI::ServiceManager::V1_0::IServiceManager::Get();" ++
      Code.refusal "servMgr == nullptr" "get IServiceManager failed!" ["return nullptr;"] ++
      Code.blank ++
      Code.line "sptr<IRemoteObject> remote = servMgr->GetService(serviceName.c_str());" ++
      Code.refusal "remote == nullptr" "get remote object failed!" ["return nullptr;"] ++
      Code.line s!"return {name}::CastFrom(remote);"]

/-- The function that makes a proxy of a remote object, unless the service has another major version
or an older minor version. -/
def castFrom (context : EmitContext) : Code :=
  let name := context.name
  let proxy := s!"{context.base}Proxy"
  Code.function [s!"sptr<{name}> {name}::CastFrom(const sptr<IRemoteObject>& remote)"] <|
    Code.branch "remote == nullptr" ["return nullptr;"] ++
    Code.line s!"sptr<{proxy}> proxy = new {proxy}(remote);" ++
    Code.blank ++
    Code.lines ["uint32_t serMajorVer = 0;", "uint32_t serMinorVer = 0;",
      "int32_t ret = proxy->GetVersion(serMajorVer, serMinorVer);"] ++
    Code.refusal "ret != HDF_SUCCESS" "get version failed!" ["return nullptr;"] ++
    Code.blank ++
    Code.branch "serMajorVer != MAJOR_VERSION || serMinorVer < MINOR_VERSION"
      ["HDF_LOGE(\"%\x7bpublic\x7ds:check version failed! version of service:%u.%u, version of client:%u.%u\", __func__,",
        "    serMajorVer, serMinorVer, MAJOR_VERSION, MINOR_VERSION);", "return nullptr;"] ++
    Code.blank ++
    Code.line "return proxy;"

/-- The function of a method.  Replies grow on demand, so no capacities are announced. -/
def proxyMethod (context : EmitContext) (interface : InterfaceType) (method : Method) : Code :=
  let types := context.types
  let data := s!"{context.localPrefix}Data"
  let reply := s!"{context.localPrefix}Reply"
  let option := s!"{context.localPrefix}Option"
  let result := s!"{context.localPrefix}Ret"
  let flags := if interface.isOneway method then "TF_ASYNC" else "TF_SYNC"
  let command := context.commandName method
  let parameters := methodParameters context method
  Code.function [s!"int32_t {context.base}Proxy::{method.name}({parameters})"] <|
    Code.paragraphs
      ([Code.lines [s!"MessageParcel {data};", s!"MessageParcel {reply};",
          s!"MessageOption {option}(MessageOption::{flags});"],
        leaveIf invalidParameter s!"!{data}.WriteInterfaceToken({context.name}::GetDescriptor())"
          "write interface descriptor",
        Code.when (types.needsCapacityFlag method)
          (leaveIf invalidParameter s!"!{data}.WriteBool(false)" "write flag of memory setting")] ++
      (method.inParameters.map fun parameter =>
        write context invalidParameter data parameter.type parameter.name) ++
      [Code.line "sptr<IRemoteObject> remote = Remote();" ++
          Code.refusal "remote == nullptr" "invalid remote object!"
            ["return HDF_ERR_INVALID_OBJECT;"],
        Code.line
            s!"int32_t {result} = remote->SendRequest({command}, {data}, {reply}, {option});" ++
          checkCall result] ++
      (method.outParameters.map fun parameter =>
        read context invalidParameter reply parameter.type parameter.name)) ++
    Code.line s!"return {result};"

/-- The files of the proxy of an interface. -/
def proxy (context : EmitContext) : Emit (List GeneratedFile) := do
  let interface ← context.interface
  let methods := (← context.methods).map Prod.snd
  return [proxyHeader context methods, source context (context.baseFile "proxy" "cpp")
    (Code.includeLine (context.baseFile "proxy" "h") ::
      Code.systemIncludes ["hdf_base.h", "hdf_log.h", "iservmgr_hdi.h", "message_option.h",
        "message_parcel.h", "object_collector.h", "securec.h", "string_ex.h"])
    (Text.snakeCase context.base ++ "_proxy")
    (Code.paragraphs
      ((if context.isCallback then [] else lookUpService context) ++
        [castFrom context] ++ methods.map (proxyMethod context interface)))]

end DriverIdl.CppCode
