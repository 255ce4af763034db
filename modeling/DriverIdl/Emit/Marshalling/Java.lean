import DriverIdl.Emit.Basic

/-!
# Java: spellings and statements

How types are spelled in Java, and the statements that write a value into a parcel and read one back.
Unsigned types travel as the signed type of the same width.  A read assigns a new value to its
target; a failed check carries out a statement that leaves the method.
-/

namespace DriverIdl.JavaCode

/-- The Java spelling of a primitive type, as an object where `boxed`. -/
def primitiveType (boxed : Bool) : Primitive → String
  | .boolean => if boxed then "Boolean" else "boolean"
  | .byte | .uchar => if boxed then "Byte" else "byte"
  | .short | .ushort => if boxed then "Short" else "short"
  | .int | .uint => if boxed then "Integer" else "int"
  | .long | .ulong => if boxed then "Long" else "long"
  | .float => if boxed then "Float" else "float"
  | .double => if boxed then "Double" else "double"
  | .string => "String"
  | .fileDescriptor => "FileDescriptor"
  | .void => "void"

/-- What the names of the parcel methods for a primitive type end with. -/
def parcelSuffix? : Primitive → Option String
  | .boolean => some "Boolean"
  | .byte | .uchar => some "Byte"
  | .short | .ushort => some "Short"
  | .int | .uint => some "Int"
  | .long | .ulong => some "Long"
  | .float => some "Float"
  | .double => some "Double"
  | .string => some "String"
  | .fileDescriptor => some "FileDescriptor"
  | .void => none

/-- The name of an enum or struct, which is nested in the class of its unit. -/
def nestedName (context : EmitContext) (unit name : String) : String :=
  if unit == context.name then name else unit ++ "." ++ name

/-- The Java spelling of a type, for at most `levels` levels of containers. -/
def typeWithin (context : EmitContext) : Nat → Bool → TypeId → Emit String
  | 0, _, _ => return ""
  | levels + 1, boxed, type =>
    match context.types.node type with
    | .primitive primitive => return primitiveType boxed primitive
    | .enum declared => return nestedName context declared.unit declared.name
    | .struct record => return nestedName context record.unit record.name
    | .array element => do
      let inner ← typeWithin context levels false element
      return s!"{inner}[]"
    | .list element => do
      let inner ← typeWithin context levels true element
      return s!"List<{inner}>"
    | .map key value => do
      let keyType ← typeWithin context levels true key
      let valueType ← typeWithin context levels true value
      return s!"HashMap<{keyType}, {valueType}>"
    | .interface declared => return declared.name
    | .sequenceable declared => return declared.name
    | .union record => throw (.unionInJava record.name)
    | .queue _ => throw .queueInJava

/-- The Java spelling of a type. -/
def typeName (context : EmitContext) (type : TypeId) : Emit String :=
  typeWithin context (context.types.size + 1) false type

/-- The Java spelling of a type where only objects may stand. -/
def boxedName (context : EmitContext) (type : TypeId) : Emit String :=
  typeWithin context (context.types.size + 1) true type

/-- How a result reaches the caller. -/
inductive ResultPassing where
  /-- The method stores into an array of one element. -/
  | holder
  /-- The reply is copied into an array of the caller. -/
  | buffer
  /-- A list or map of the caller is cleared and filled again. -/
  | collection
  /-- A struct of the caller is read in place. -/
  | inPlace
  deriving DecidableEq, Inhabited

/-- How a result of a type reaches the caller. -/
def resultPassing (types : TypeArena) (type : TypeId) : ResultPassing :=
  match types.node type with
  | .array _ => .buffer
  | .list _ | .map _ _ => .collection
  | .struct _ => .inPlace
  | _ => .holder

/-- The declarator of a parameter. -/
def parameterDeclarator (context : EmitContext) (parameter : Parameter) : Emit String := do
  let type ← typeName context parameter.type
  if parameter.isOut && resultPassing context.types parameter.type == .holder then
    return s!"{type}[] {parameter.name}"
  else return s!"{type} {parameter.name}"

/-- The head of a method. -/
def signature (context : EmitContext) (method : Method) : Emit String := do
  let name := Text.lowerCamel method.name
  let declarators ← method.parameters.mapM (parameterDeclarator context)
  let parameters := String.intercalate ", " declarators
  return s!"int {name}({parameters}) throws RemoteException"

/-- The field of a member.  Strings and containers of a new object are empty, never missing. -/
def fieldDeclaration (context : EmitContext) (member : Member) : Emit String := do
  let type ← typeName context member.type
  return match context.types.node member.type with
    | .primitive .string => s!"public String {member.name} = \"\";"
    | .list _ => s!"public {type} {member.name} = new ArrayList<>();"
    | .map _ _ => s!"public {type} {member.name} = new HashMap<>();"
    | _ => s!"public {type} {member.name};"

/-- The expression for a new array: its size goes in front of the brackets of the element type, and
type arguments are left out. -/
def newArray (element size : String) : String :=
  let head := element.toList.takeWhile (· != '[')
  let dimensions := String.ofList (element.toList.dropWhile (· != '['))
  let raw := String.ofList (head.takeWhile (· != '<'))
  s!"new {raw}[{size}]{dimensions}"

/-- Writes a value into a parcel, for at most `levels` levels of containers. -/
def writeWithin (context : EmitContext) (parcel : String) :
    Nat → TypeId → String → Nat → Emit Code
  | 0, _, _, _ => return []
  | levels + 1, type, value, depth =>
    let item := s!"it{depth}"
    match context.types.node type with
    | .primitive primitive =>
      match parcelSuffix? primitive with
      | some suffix => return Code.line s!"{parcel}.write{suffix}({value});"
      | none => return []
    | .enum declared =>
      match parcelSuffix? declared.base with
      | some suffix => return Code.line s!"{parcel}.write{suffix}({value}.getValue());"
      | none => return []
    | .struct _ | .sequenceable _ => return Code.line s!"{parcel}.writeSequenceable({value});"
    | .array element => do
      let elementType ← typeName context element
      let body ← writeWithin context parcel levels element item (depth + 1)
      return Code.line s!"{parcel}.writeInt({value}.length);" ++
        Code.braced s!"for ({elementType} {item} : {value})" body
    | .list element => do
      let elementType ← boxedName context element
      let body ← writeWithin context parcel levels element item (depth + 1)
      return Code.line s!"{parcel}.writeInt({value}.size());" ++
        Code.braced s!"for ({elementType} {item} : {value})" body
    | .map key mapped => do
      let keyType ← boxedName context key
      let valueType ← boxedName context mapped
      let keyCode ← writeWithin context parcel levels key s!"{item}.getKey()" (depth + 1)
      let valueCode ← writeWithin context parcel levels mapped s!"{item}.getValue()" (depth + 1)
      return Code.line s!"{parcel}.writeInt({value}.size());" ++
        Code.braced s!"for (Map.Entry<{keyType}, {valueType}> {item} : {value}.entrySet())"
          (keyCode ++ valueCode)
    | .interface _ => return Code.line s!"{parcel}.writeRemoteObject({value}.asObject());"
    | .union record => throw (.unionInJava record.name)
    | .queue _ => throw .queueInJava

/-- Writes a value into a parcel. -/
def write (context : EmitContext) (parcel : String) (type : TypeId) (value : String) : Emit Code :=
  writeWithin context parcel (context.types.size + 1) type value 0

/-- The statement that leaves a method of the interface. -/
def invalidParameter : String := "return HDF_ERR_INVALID_PARAM;"

/-- Reads the size of a container and checks it. -/
def readSize (leave parcel size : String) : Code :=
  Code.line s!"int {size} = {parcel}.readInt();" ++
    Code.branch s!"{size} < 0 || {size} > HDI_BUFF_MAX_SIZE" [leave]

/-- A loop over as many elements as were announced. -/
def countedLoop (depth : Nat) (size : String) (body : Code) : Code :=
  Code.braced s!"for (int i{depth} = 0; i{depth} < {size}; i{depth}++)" body

/-- Reads a value from a parcel, for at most `levels` levels of containers. -/
def readWithin (context : EmitContext) (leave parcel : String) :
    Nat → TypeId → String → Nat → Emit Code
  | 0, _, _, _ => return []
  | levels + 1, type, target, depth =>
    let stem := lastWord target
    let size := s!"{stem}Size{depth}"
    let keyItem := s!"key{depth}"
    let valueItem := s!"value{depth}"
    match context.types.node type with
    | .primitive primitive =>
      match parcelSuffix? primitive with
      | some suffix => return Code.line s!"{target} = {parcel}.read{suffix}();"
      | none => return []
    | .enum declared =>
      match parcelSuffix? declared.base with
      | some suffix =>
        let name := nestedName context declared.unit declared.name
        return Code.line s!"{target} = {name}.fromValue({parcel}.read{suffix}());"
      | none => return []
    | .struct _ | .sequenceable _ => do
      let name ← typeName context type
      return Code.line s!"{target} = new {name}();" ++
        Code.branch s!"!{parcel}.readSequenceable({target})" [leave]
    | .array element => do
      let elementType ← typeName context element
      let allocation := newArray elementType size
      let body ← readWithin context leave parcel levels element s!"{target}[i{depth}]" (depth + 1)
      return readSize leave parcel size ++
        Code.line s!"{target} = {allocation};" ++ countedLoop depth size body
    | .list element => do
      let elementType ← typeName context element
      let body ← readWithin context leave parcel levels element valueItem (depth + 1)
      return readSize leave parcel size ++
        Code.line s!"{target} = new ArrayList<>({size});" ++
        countedLoop depth size
          (Code.line s!"{elementType} {valueItem};" ++ body ++
            Code.line s!"{target}.add({valueItem});")
    | .map key value => do
      let keyType ← typeName context key
      let keyCode ← readWithin context leave parcel levels key keyItem (depth + 1)
      let valueType ← typeName context value
      let valueCode ← readWithin context leave parcel levels value valueItem (depth + 1)
      return readSize leave parcel size ++
        Code.line s!"{target} = new HashMap<>();" ++
        countedLoop depth size
          (Code.line s!"{keyType} {keyItem};" ++ keyCode ++
            Code.line s!"{valueType} {valueItem};" ++ valueCode ++
            Code.line s!"{target}.put({keyItem}, {valueItem});")
    | .interface declared =>
      let base := Text.baseName declared.name
      return Code.line s!"{target} = {base}Proxy.castFrom({parcel}.readRemoteObject());" ++
        Code.branch s!"{target} == null" [leave]
    | .union record => throw (.unionInJava record.name)
    | .queue _ => throw .queueInJava

/-- Reads a value from a parcel. -/
def read (context : EmitContext) (leave parcel : String) (type : TypeId) (target : String) :
    Emit Code :=
  readWithin context leave parcel (context.types.size + 1) type target 0

end DriverIdl.JavaCode
