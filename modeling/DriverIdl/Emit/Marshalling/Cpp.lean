import DriverIdl.Emit.Basic

/-!
# C++: spellings and statements

How types are spelled in C++, and the statements that write a value into a parcel and read one back.
Values and targets are expressions for objects; a failed step carries out a statement that leaves the
function.
-/

namespace DriverIdl.CppCode

/-- The C++ spelling of a segment of a package. -/
def namespaceSegment (segment : String) : String :=
  if segment == "ohos" then "OHOS"
  else if segment == "hdi" then "HDI"
  else if (Package.versionDigits? segment.toList).isSome then Text.uppercase segment
  else Text.pascalCase segment

/-- The C++ namespaces of a package, outermost first. -/
def namespaces (context : EmitContext) (namespaceId : NamespaceId) : List String :=
  (context.program.namespaces.segments namespaceId).map namespaceSegment

/-- The qualified name of the C++ namespace of a package. -/
def qualifiedNamespace (context : EmitContext) (namespaceId : NamespaceId) : String :=
  String.intercalate "::" (namespaces context namespaceId)

/-- The name of a declared type; it is qualified outside its own package. -/
def declaredName (context : EmitContext) (namespaceId : NamespaceId) (name : String) : String :=
  if namespaceId == context.unit.namespaceId then name
  else qualifiedNamespace context namespaceId ++ "::" ++ name

/-- The C++ spelling of a primitive type. -/
def primitiveType : Primitive → String
  | .boolean => "bool"
  | .byte => "int8_t"
  | .short => "int16_t"
  | .int => "int32_t"
  | .long => "int64_t"
  | .float => "float"
  | .double => "double"
  | .uchar => "uint8_t"
  | .ushort => "uint16_t"
  | .uint => "uint32_t"
  | .ulong => "uint64_t"
  | .string => "std::string"
  | .fileDescriptor => "int"
  | .void => "void"

/-- What the names of the parcel functions for a fixed-width type end with. -/
def parcelSuffix? : Primitive → Option String
  | .boolean => some "Bool"
  | .byte => some "Int8"
  | .short => some "Int16"
  | .int => some "Int32"
  | .long => some "Int64"
  | .uchar => some "Uint8"
  | .ushort => some "Uint16"
  | .uint => some "Uint32"
  | .ulong => some "Uint64"
  | .float => some "Float"
  | .double => some "Double"
  | .string | .fileDescriptor | .void => none

/-- The C++ spelling of a type, for at most `levels` levels of containers. -/
def typeWithin (context : EmitContext) : Nat → TypeId → String
  | 0, _ => ""
  | levels + 1, type =>
    match context.types.node type with
    | .primitive primitive => primitiveType primitive
    | .enum declared => declaredName context declared.namespaceId declared.name
    | .struct record | .union record => declaredName context record.namespaceId record.name
    | .array element | .list element =>
      let inner := typeWithin context levels element
      s!"std::vector<{inner}>"
    | .map key value =>
      let keyType := typeWithin context levels key
      let valueType := typeWithin context levels value
      s!"std::map<{keyType}, {valueType}>"
    | .interface declared =>
      let name := declaredName context declared.namespaceId declared.name
      s!"sptr<{name}>"
    | .sequenceable declared =>
      let name := declaredName context declared.namespaceId declared.name
      s!"sptr<{name}>"
    | .queue element =>
      let inner := typeWithin context levels element
      s!"std::shared_ptr<SharedMemQueue<{inner}>>"

/-- The C++ spelling of a type. -/
def typeName (context : EmitContext) (type : TypeId) : String :=
  typeWithin context (context.types.size + 1) type

/-- Whether an argument travels by value; all but scalars travel by reference. -/
def passedByValue (types : TypeArena) (type : TypeId) : Bool :=
  match types.node type with
  | .primitive .string => false
  | .primitive _ | .enum _ => true
  | _ => false

/-- The declarator of a parameter. -/
def parameterDeclarator (context : EmitContext) (parameter : Parameter) : String :=
  let type := typeName context parameter.type
  if parameter.isOut then s!"{type}& {parameter.name}"
  else if passedByValue context.types parameter.type then s!"{type} {parameter.name}"
  else s!"const {type}& {parameter.name}"

/-- The parameters of a method. -/
def methodParameters (context : EmitContext) (method : Method) : String :=
  String.intercalate ", " (method.parameters.map (parameterDeclarator context))

/-- The declaration of a variable with a defined first value. -/
def variableDeclaration (context : EmitContext) (type : TypeId) (name : String) : String :=
  let spelled := typeName context type
  match context.types.node type with
  | .primitive .boolean => s!"bool {name} = false;"
  | .primitive .fileDescriptor => s!"int {name} = -1;"
  | .primitive .string => s!"{spelled} {name};"
  | .primitive _ => s!"{spelled} {name} = 0;"
  | .union _ => s!"{spelled} {name} = \x7b\x7d;"
  | _ => s!"{spelled} {name};"

/-- An expression as log messages show it. -/
def shown (expression : String) : String :=
  Text.replaceAll ".second" " value" (Text.replaceAll ".first" " key" expression)

/-- Logs and leaves if a condition tells that a step failed. -/
def leaveIf (leave failed what : String) : Code :=
  Code.refusal failed s!"{what} failed!" [leave]

/-- The statement that leaves a function of the interface. -/
def invalidParameter : String := "return HDF_ERR_INVALID_PARAM;"

/-- Leaves with an error code that a call gave. -/
def checkCall (result : String) : Code :=
  Code.branch s!"{result} != HDF_SUCCESS"
    [s!"HDF_LOGE(\"%\x7bpublic\x7ds failed, error code is %\x7bpublic\x7dd\", __func__, {result});",
      s!"return {result};"]

/-- Writes a value into a parcel, for at most `levels` levels of containers. -/
def writeWithin (context : EmitContext) (leave parcel : String) :
    Nat → TypeId → String → Nat → Code
  | 0, _, _, _ => []
  | levels + 1, type, value, depth =>
    let label := shown value
    let what := s!"write {label}"
    let item := s!"it{depth}"
    match context.types.node type with
    | .primitive .string => leaveIf leave s!"!{parcel}.WriteCString({value}.c_str())" what
    | .primitive .fileDescriptor => leaveIf leave s!"!{parcel}.WriteFileDescriptor({value})" what
    | .primitive primitive =>
      match parcelSuffix? primitive with
      | some suffix => leaveIf leave s!"!{parcel}.Write{suffix}({value})" what
      | none => []
    | .enum declared =>
      match parcelSuffix? declared.base with
      | some suffix =>
        let base := primitiveType declared.base
        leaveIf leave s!"!{parcel}.Write{suffix}(static_cast<{base}>({value}))" what
      | none => []
    | .struct record =>
      let name := declaredName context record.namespaceId record.name
      leaveIf leave s!"!{name}BlockMarshalling({parcel}, {value})" what
    | .union record =>
      let name := declaredName context record.namespaceId record.name
      leaveIf leave s!"!{parcel}.WriteUnpadBuffer((const void*)&{value}, sizeof({name}))" what
    | .array element | .list element =>
      leaveIf leave s!"!{parcel}.WriteUint32({value}.size())" s!"{what} size" ++
        Code.braced s!"for (const auto& {item} : {value})"
          (writeWithin context leave parcel levels element item (depth + 1))
    | .map key mapped =>
      leaveIf leave s!"!{parcel}.WriteUint32({value}.size())" s!"{what} size" ++
        Code.braced s!"for (const auto& {item} : {value})"
          (writeWithin context leave parcel levels key s!"({item}.first)" (depth + 1) ++
            writeWithin context leave parcel levels mapped s!"({item}.second)" (depth + 1))
    | .interface declared =>
      let name := declaredName context declared.namespaceId declared.name
      leaveIf leave s!"{value} == nullptr" s!"check {label}" ++
        leaveIf leave
          s!"!{parcel}.WriteRemoteObject(OHOS::HDI::ObjectCollector::GetInstance().GetOrNewObject({value}, {name}::GetDescriptor()))"
          what
    | .sequenceable _ => leaveIf leave s!"!{parcel}.WriteStrongParcelable({value})" what
    | .queue _ =>
      leaveIf leave
        s!"{value} == nullptr || !{value}->IsGood() || {value}->GetMeta() == nullptr || !{value}->GetMeta()->Marshalling({parcel})"
        what

/-- Writes a value into a parcel. -/
def write (context : EmitContext) (leave parcel : String) (type : TypeId) (value : String) : Code :=
  writeWithin context leave parcel (context.types.size + 1) type value 0

/-- A loop over as many elements as were announced. -/
def countedLoop (depth : Nat) (size : String) (body : Code) : Code :=
  Code.braced s!"for (uint32_t i{depth} = 0; i{depth} < {size}; ++i{depth})" body

/-- Reads a value from a parcel, for at most `levels` levels of containers. -/
def readWithin (context : EmitContext) (leave parcel : String) :
    Nat → TypeId → String → Nat → Code
  | 0, _, _, _ => []
  | levels + 1, type, target, depth =>
    let label := shown target
    let what := s!"read {label}"
    let stem := lastWord target
    let keyItem := s!"key{depth}"
    let valueItem := s!"value{depth}"
    match context.types.node type with
    | .primitive .string =>
      Code.line s!"const char* {stem}Cp{depth} = {parcel}.ReadCString();" ++
        leaveIf leave s!"{stem}Cp{depth} == nullptr" what ++
        Code.line s!"{target} = {stem}Cp{depth};"
    | .primitive .fileDescriptor =>
      Code.line s!"{target} = {parcel}.ReadFileDescriptor();" ++ leaveIf leave s!"{target} < 0" what
    | .primitive primitive =>
      match parcelSuffix? primitive with
      | some suffix => leaveIf leave s!"!{parcel}.Read{suffix}({target})" what
      | none => []
    | .enum declared =>
      match parcelSuffix? declared.base with
      | some suffix =>
        let base := primitiveType declared.base
        let name := declaredName context declared.namespaceId declared.name
        Code.line s!"{base} {stem}Tmp{depth} = 0;" ++
          leaveIf leave s!"!{parcel}.Read{suffix}({stem}Tmp{depth})" what ++
          Code.line s!"{target} = static_cast<{name}>({stem}Tmp{depth});"
      | none => []
    | .struct record =>
      let name := declaredName context record.namespaceId record.name
      leaveIf leave s!"!{name}BlockUnmarshalling({parcel}, {target})" what
    | .union record =>
      let name := declaredName context record.namespaceId record.name
      let copy := s!"{stem}Cp{depth}"
      Code.line
          s!"const {name} *{copy} = reinterpret_cast<const {name} *>({parcel}.ReadUnpadBuffer(sizeof({name})));" ++
        leaveIf leave s!"{copy} == nullptr" what ++
        leaveIf leave s!"memcpy_s(&{target}, sizeof({name}), {copy}, sizeof({name})) != EOK"
          s!"memcpy {label}"
    | .array element | .list element =>
      let size := s!"{stem}Size{depth}"
      let elementType := typeName context element
      Code.line s!"uint32_t {size} = 0;" ++
        leaveIf leave s!"!{parcel}.ReadUint32({size})" s!"{what} size" ++
        leaveIf leave s!"{size} > HDI_BUFF_MAX_SIZE / sizeof({elementType})" s!"check {label} size" ++
        Code.lines [s!"{target}.clear();", s!"{target}.reserve({size});"] ++
        countedLoop depth size
          (Code.line (variableDeclaration context element valueItem) ++
            readWithin context leave parcel levels element valueItem (depth + 1) ++
            Code.line s!"{target}.push_back({valueItem});")
    | .map key value =>
      let size := s!"{stem}Size{depth}"
      Code.line s!"uint32_t {size} = 0;" ++
        leaveIf leave s!"!{parcel}.ReadUint32({size})" s!"{what} size" ++
        Code.line s!"{target}.clear();" ++
        countedLoop depth size
          (Code.line (variableDeclaration context key keyItem) ++
            readWithin context leave parcel levels key keyItem (depth + 1) ++
            Code.line (variableDeclaration context value valueItem) ++
            readWithin context leave parcel levels value valueItem (depth + 1) ++
            Code.line s!"{target}[{keyItem}] = {valueItem};")
    | .interface declared =>
      let name := declaredName context declared.namespaceId declared.name
      let remote := s!"{stem}Remote{depth}"
      Code.line s!"sptr<IRemoteObject> {remote} = {parcel}.ReadRemoteObject();" ++
        leaveIf leave s!"{remote} == nullptr" what ++
        Code.line s!"{target} = {name}::CastFrom({remote});" ++
        leaveIf leave s!"{target} == nullptr" s!"cast {label}"
    | .sequenceable declared =>
      let name := declaredName context declared.namespaceId declared.name
      Code.line s!"{target} = {parcel}.ReadStrongParcelable<{name}>();" ++
        leaveIf leave s!"{target} == nullptr" what
    | .queue element =>
      let elementType := typeName context element
      let queueMeta := s!"{stem}Meta{depth}"
      Code.line
          s!"std::shared_ptr<SharedMemQueueMeta<{elementType}>> {queueMeta} = SharedMemQueueMeta<{elementType}>::UnMarshalling({parcel});" ++
        leaveIf leave s!"{queueMeta} == nullptr" what ++
        Code.line s!"{target} = std::make_shared<SharedMemQueue<{elementType}>>(*{queueMeta});"

/-- Reads a value from a parcel. -/
def read (context : EmitContext) (leave parcel : String) (type : TypeId) (target : String) : Code :=
  readWithin context leave parcel (context.types.size + 1) type target 0

end DriverIdl.CppCode
