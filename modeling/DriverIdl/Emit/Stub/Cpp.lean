import DriverIdl.Emit.Frame.Cpp

/-!
# C++: stubs

The server side of an interface: a class whose functions read a request, call the implementation and
write the reply.
-/

namespace DriverIdl.CppCode

/-- The name of the function that serves a method. -/
def handler (context : EmitContext) (method : Method) : String :=
  s!"{context.base}Stub{method.name}"

/-- The parameters of a function that serves a method. -/
def handlerParameters (context : EmitContext) : String :=
  let stem := context.localPrefix
  s!"(MessageParcel& {stem}Data, MessageParcel& {stem}Reply, MessageOption& {stem}Option)"

/-- The header of a stub. -/
def stubHeader (context : EmitContext) (methods : List Method) : GeneratedFile :=
  let name := context.name
  let stub := s!"{context.base}Stub"
  let handlers := methods.map fun method =>
    Code.line ("int32_t " ++ handler context method ++ handlerParameters context ++ ";")
  header context (context.baseFile "stub" "h")
    (Code.lines (Code.includeLine (headerFile context.unit) ::
      Code.systemIncludes ["ipc_object_stub.h", "message_option.h", "message_parcel.h", "refbase.h"]))
    (classDefinition s!"{stub} : public IPCObjectStub"
      (Code.paragraphs
        [Code.lines [s!"explicit {stub}(const sptr<{name}> &impl);", s!"virtual ~{stub}();"],
          Code.lines
            ["int32_t OnRemoteRequest(uint32_t code, MessageParcel &data, MessageParcel &reply,",
              "    MessageOption &option) override;"]])
      (Code.paragraphs handlers ++ Code.line s!"sptr<{name}> impl_;"))

/-- Reads the capacities that the caller announced, each within the limit. -/
def readCapacities (context : EmitContext) (data flag : String) (parameters : List Parameter) :
    Code :=
  Code.line s!"bool {flag} = false;" ++
    leaveIf invalidParameter s!"!{data}.ReadBool({flag})" "read flag of memory setting" ++
    Code.lines (parameters.map fun parameter =>
      s!"uint32_t {parameter.name}Cap = HDI_BUFF_MAX_SIZE;") ++
    Code.braced s!"if ({flag})" (parameters.flatMap fun parameter =>
      let capacity := s!"{parameter.name}Cap"
      let largest := match context.types.element? parameter.type with
        | some element =>
          let elementType := typeName context element
          s!"HDI_BUFF_MAX_SIZE / sizeof({elementType})"
        | none => "HDI_BUFF_MAX_SIZE"
      leaveIf invalidParameter s!"!{data}.ReadUint32({capacity})"
          s!"read {parameter.name} capacity" ++
        leaveIf invalidParameter s!"{capacity} > {largest}" s!"check {parameter.name} capacity")

/-- Leaves if a result is larger than its capacity.  A string needs room for its end. -/
def checkCapacity (types : TypeArena) (parameter : Parameter) : Code :=
  let name := parameter.name
  let excess := match types.node parameter.type with
    | .primitive .string => s!"{name}.size() >= {name}Cap"
    | _ => s!"{name}.size() > {name}Cap"
  leaveIf invalidParameter excess s!"check {name} capacity"

/-- The function that serves a method. -/
def stubMethod (context : EmitContext) (method : Method) : Code :=
  let types := context.types
  let data := s!"{context.localPrefix}Data"
  let reply := s!"{context.localPrefix}Reply"
  let result := s!"{context.localPrefix}Ret"
  let flag := s!"{context.localPrefix}MemSet"
  let limited := types.capacityParameters method
  let passed := String.intercalate ", " (method.parameters.map Parameter.name)
  let arguments := method.inParameters.map fun parameter =>
    Code.line (variableDeclaration context parameter.type parameter.name) ++
      read context invalidParameter data parameter.type parameter.name
  let results := method.outParameters.map fun parameter =>
    variableDeclaration context parameter.type parameter.name
  let reserves := limited.flatMap fun parameter =>
    Code.when (types.element? parameter.type).isSome
      (Code.branch flag [s!"{parameter.name}.reserve({parameter.name}Cap);"])
  Code.function
    ["int32_t " ++ context.base ++ "Stub::" ++ handler context method ++
      handlerParameters context] <|
    Code.paragraphs
      (Code.when (!limited.isEmpty) (readCapacities context data flag limited) :: arguments) ++
    Code.lines results ++ reserves ++ Code.blank ++
    Code.paragraphs
      ([Code.refusal "impl_ == nullptr" "impl_ is nullptr!" ["return HDF_ERR_INVALID_OBJECT;"],
        Code.line s!"int32_t {result} = impl_->{method.name}({passed});" ++ checkCall result,
        limited.flatMap (checkCapacity types)] ++
      (method.outParameters.map fun parameter =>
        write context invalidParameter reply parameter.type parameter.name)) ++
    Code.line s!"return {result};"

/-- The function that serves a request. -/
def serveRequest (context : EmitContext) (methods : List Method) : Code :=
  let cases : Code := methods.flatMap fun method =>
    let command := context.commandName method
    let function := handler context method
    [.opening s!"case {command}:", .line s!"return {function}(data, reply, option);", .dedent]
  Code.function
    [s!"int32_t {context.base}Stub::OnRemoteRequest(uint32_t code, MessageParcel& data, MessageParcel& reply, MessageOption& option)"] <|
    Code.refusal s!"data.ReadInterfaceToken() != {context.name}::GetDescriptor()"
      "interface token check failed!" [invalidParameter] ++
    Code.blank ++
    Code.braced "switch (code)"
      (cases ++ Code.braced "default:"
        (Code.lines
          ["HDF_LOGE(\"%\x7bpublic\x7ds: cmd %\x7bpublic\x7dd is not supported\", __func__, code);",
            invalidParameter]))

/-- The files of the stub of an interface. -/
def stub (context : EmitContext) : Emit (List GeneratedFile) := do
  let name := context.name
  let stub := s!"{context.base}Stub"
  let methods := (← context.methods).map Prod.snd
  return [stubHeader context methods, source context (context.baseFile "stub" "cpp")
    (Code.includeLine (context.baseFile "stub" "h") ::
      Code.systemIncludes ["hdf_base.h", "hdf_log.h", "object_collector.h", "securec.h", "string_ex.h"])
    (Text.snakeCase context.base ++ "_stub")
    (Code.paragraphs
      ([Code.function
          [s!"{stub}::{stub}(const sptr<{name}> &impl) : IPCObjectStub({name}::GetDescriptor()), impl_(impl)"]
          [],
        Code.function [s!"{stub}::~{stub}()"] (Code.line "impl_ = nullptr;"),
        serveRequest context methods] ++
      methods.map (stubMethod context)))]

end DriverIdl.CppCode
