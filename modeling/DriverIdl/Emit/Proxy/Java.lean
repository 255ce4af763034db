import DriverIdl.Emit.Frame.Java

/-!
# Java: proxies

The client side of an interface: a class whose methods write their arguments into a request, send it
and hand the results of the reply back to the caller.
-/

namespace DriverIdl.JavaCode

/-- Hands a result of a reply back to the caller. -/
def readResult (context : EmitContext) (reply : String) (parameter : Parameter) : Emit Code := do
  let name := parameter.name
  match resultPassing context.types parameter.type with
  | .holder => read context invalidParameter reply parameter.type s!"{name}[0]"
  | .inPlace => return Code.branch s!"!{reply}.readSequenceable({name})" [invalidParameter]
  | .buffer =>
    let type ← typeName context parameter.type
    let body ← read context invalidParameter reply parameter.type s!"{name}Out"
    return Code.line s!"{type} {name}Out;" ++ body ++
      Code.branch s!"{name}Out.length > {name}.length" [invalidParameter] ++
      Code.line s!"System.arraycopy({name}Out, 0, {name}, 0, {name}Out.length);"
  | .collection =>
    let type ← typeName context parameter.type
    let body ← read context invalidParameter reply parameter.type s!"{name}Out"
    let refill := if (context.types.element? parameter.type).isSome then "addAll" else "putAll"
    return Code.line s!"{type} {name}Out;" ++ body ++
      Code.lines [s!"{name}.clear();", s!"{name}.{refill}({name}Out);"]

/-- A method of the proxy.  Replies grow on demand, so no capacities are announced. -/
def proxyMethod (context : EmitContext) (oneway : Bool) (method : Method) : Emit Code := do
  let data := s!"{context.localPrefix}Data"
  let reply := s!"{context.localPrefix}Reply"
  let option := s!"{context.localPrefix}Option"
  let flags := if oneway then "TF_ASYNC" else "TF_SYNC"
  let command := context.commandName method
  let head ← signature context method
  let arguments ← Code.forEach method.inParameters fun parameter =>
    write context data parameter.type parameter.name
  let results ← Code.forEach method.outParameters (readResult context reply)
  return Code.line "@Override" ++ Code.braced s!"public {head}"
    (Code.lines [s!"MessageParcel {data} = MessageParcel.obtain();",
        s!"MessageParcel {reply} = MessageParcel.obtain();",
        s!"MessageOption {option} = new MessageOption(MessageOption.{flags});"] ++
      Code.blank ++
      Code.line s!"{data}.writeInterfaceToken(DESCRIPTOR);" ++
      Code.when (context.types.needsCapacityFlag method) (Code.line s!"{data}.writeBoolean(false);") ++
      arguments ++
      Code.blank ++
      Code.bracedTwice "try"
        (Code.branch s!"!remote.sendRequest({command}, {data}, {reply}, {option})"
            ["return HDF_FAILURE;"] ++
          results ++ Code.line "return HDF_SUCCESS;")
        "finally" (Code.lines [s!"{data}.reclaim();", s!"{reply}.reclaim();"]))

/-- The method that makes a proxy of a remote object, unless the service has another major version
or an older minor version. -/
def castFrom (context : EmitContext) : Code :=
  let proxy := s!"{context.base}Proxy"
  let version := Text.lowerCamel Method.versionName
  Code.lines ["/**", " * Wraps \x7b@code remote\x7d after checking that the service speaks a",
    " * compatible version. Returns null otherwise.", " */"] ++
  Code.braced s!"public static {context.name} castFrom(IRemoteObject remote)"
    (Code.branch "remote == null" ["return null;"] ++
      Code.lines [s!"{proxy} proxy = new {proxy}(remote);", "int[] serMajorVer = new int[1];",
        "int[] serMinorVer = new int[1];"] ++
      Code.bracedTwice "try"
        (Code.branch s!"proxy.{version}(serMajorVer, serMinorVer) != HDF_SUCCESS" ["return null;"])
        "catch (RemoteException e)" (Code.line "return null;") ++
      Code.branch "serMajorVer[0] != MAJOR_VERSION || serMinorVer[0] < MINOR_VERSION"
        ["return null;"] ++
      Code.line "return proxy;")

/-- The file of the proxy of an interface. -/
def proxy (context : EmitContext) : Emit (List GeneratedFile) := do
  let proxy := s!"{context.base}Proxy"
  let interface ← context.interface
  let methods := (← context.methods).map Prod.snd
  let bodies ← Code.forEach methods fun method => do
    return Code.blank ++ (← proxyMethod context (interface.isOneway method) method)
  let imports := ["IRemoteObject", "MessageOption", "MessageParcel", "RemoteException"].map
    ("ohos.rpc." ++ ·)
  return [file context proxy (imports ++ mentionedByMethods context methods) <|
    Code.braced s!"public class {proxy} implements {context.name}" <|
      Code.paragraphs
        [Code.lines ["private static final int HDF_SUCCESS = 0;",
            "private static final int HDF_FAILURE = -1;",
            "private static final int HDF_ERR_INVALID_PARAM = -3;",
            "private static final int HDI_BUFF_MAX_SIZE = 1024 * 200;"],
          Code.line "private final IRemoteObject remote;",
          Code.braced s!"public {proxy}(IRemoteObject remote)" (Code.line "this.remote = remote;"),
          castFrom context] ++
      Code.line "@Override" ++
      Code.braced "public IRemoteObject asObject()" (Code.line "return remote;") ++
      bodies]

end DriverIdl.JavaCode
