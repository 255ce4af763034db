import DriverIdl.Emit.Basic

/-!
# C: spellings and statements

How types are spelled in C, and the statements that write a value into a buffer, read one back and
release what it owns.  Statements are built over C expressions: a value expression denotes the object
itself, so a pointer parameter stands as `*name`.  Arrays and lists are a pointer expression with a
length expression beside it.
-/

namespace DriverIdl.CCode

/-- Refuses a type that C does not have. -/
def unsupported {α : Type} (types : TypeArena) (type : TypeId) : Emit α :=
  throw (.unsupportedInC (types.spelling type))

/-- The C spelling of a primitive type. -/
def primitiveType : Primitive → String
  | .boolean => "bool"
  | .byte => "int8_t"
  | .short => "int16_t"
  | .int => "int32_t"
  | .long => "int64_t"
  | .float => "float"
  | .double => "double"
  | .uchar => "uint8_t"
  | .ushort => "uint16_t"
  | .uint => "uint32_t"
  | .ulong => "uint64_t"
  | .string => "char*"
  | .fileDescriptor => "int"
  | .void => "void"

/-- What the names of the buffer functions for a fixed-width type end with. -/
def bufferSuffix? : Primitive → Option String
  | .boolean | .byte => some "Int8"
  | .short => some "Int16"
  | .int => some "Int32"
  | .long => some "Int64"
  | .uchar => some "Uint8"
  | .ushort => some "Uint16"
  | .uint => some "Uint32"
  | .ulong => some "Uint64"
  | .float => some "Float"
  | .double => some "Double"
  | .string | .fileDescriptor | .void => none

/-- The buffer suffix of a type that must have one. -/
def bufferSuffix (types : TypeArena) (type : TypeId) (primitive : Primitive) : Emit String :=
  match bufferSuffix? primitive with
  | some suffix => return suffix
  | none => unsupported types type

/-- The C spelling of a type, for at most `depth` levels of containers. -/
def typeWithin (types : TypeArena) : Nat → TypeId → Emit String
  | 0, _ => return ""
  | depth + 1, type =>
    match types.node type with
    | .primitive primitive => return primitiveType primitive
    | .enum declared => return "enum " ++ declared.name
    | .struct record => return "struct " ++ record.name
    | .union record => return "union " ++ record.name
    | .array element | .list element => return (← typeWithin types depth element) ++ "*"
    | .interface declared => return "struct " ++ declared.name ++ "*"
    | .map _ _ | .sequenceable _ | .queue _ => unsupported types type

/-- The C spelling of a type. -/
def typeName (types : TypeArena) (type : TypeId) : Emit String :=
  typeWithin types (types.size + 1) type

/-- The address of an expression. -/
def addressOf (expression : String) : String :=
  match expression.toList with
  | '*' :: inner => String.ofList inner
  | _ => "&" ++ expression

/-- Continues an identifier; a character behind a skipped one is a capital. -/
def identifierFrom (started skipped : Bool) : List Char → List Char
  | [] => []
  | character :: rest =>
    if isWordChar character then
      (if skipped && started then character.toUpper else character) :: identifierFrom true false rest
    else identifierFrom started true rest

/-- An identifier made of an expression, for the names of temporaries. -/
def identifier (expression : String) : String :=
  String.ofList (identifierFrom false false expression.toList)

/-- An expression as log messages show it. -/
def shown (expression : String) : String :=
  String.ofList (expression.toList.dropWhile fun character => character == '*' || character == '&')

/-- The counter of a loop at a depth. -/
def counter : Nat → String
  | 0 => "i"
  | 1 => "j"
  | 2 => "k"
  | 3 => "l"
  | 4 => "m"
  | _ => "n"

/-- What a failed step does behind its log message. -/
inductive Recovery where
  | jump (result : Option String) (label : String)
  | returnFalse
  deriving DecidableEq, Inhabited

/-- Logs a failed step and leaves with an error code. -/
def Recovery.leaveWith (recovery : Recovery) (what code : String) : Code :=
  Code.logError (what ++ " failed!") ++
    match recovery with
    | .jump (some result) label => Code.lines [s!"{result} = {code};", s!"goto {label};"]
    | .jump none label => Code.line s!"goto {label};"
    | .returnFalse => Code.line "return false;"

/-- Leaves if a condition tells that a step failed. -/
def leaveIfWith (recovery : Recovery) (failed what code : String) : Code :=
  Code.braced s!"if ({failed})" (recovery.leaveWith what code)

/-- Leaves if a condition tells that a step failed on its data. -/
def leaveIf (recovery : Recovery) (failed what : String) : Code :=
  leaveIfWith recovery failed what "HDF_ERR_INVALID_PARAM"

/-- The declarators of a parameter.  Arrays, lists and string results have a length beside them. -/
def parameterDeclarators (types : TypeArena) (parameter : Parameter) : Emit (List String) :=
  let name := parameter.name
  match parameter.direction, types.node parameter.type with
  | .inward, .primitive .string => return [s!"const char* {name}"]
  | .inward, .struct _ | .inward, .union _ => do
    let type ← typeName types parameter.type
    return [s!"const {type}* {name}"]
  | .inward, .array element | .inward, .list element => do
    let type ← typeName types element
    return [s!"const {type}* {name}", s!"uint32_t {name}Len"]
  | .inward, _ => do
    let type ← typeName types parameter.type
    return [s!"{type} {name}"]
  | .outward, .primitive .string => return [s!"char* {name}", s!"uint32_t {name}Len"]
  | .outward, .array element | .outward, .list element => do
    let type ← typeName types element
    return [s!"{type}* {name}", s!"uint32_t* {name}Len"]
  | .outward, _ => do
    let type ← typeName types parameter.type
    return [s!"{type}* {name}"]

/-- The fields of a member. -/
def memberDeclarations (types : TypeArena) (member : Member) : Emit (List String) :=
  let name := member.name
  match types.node member.type with
  | .array element | .list element => do
    let type ← typeName types element
    return [s!"{type}* {name};", s!"uint32_t {name}Len;"]
  | _ => do
    let type ← typeName types member.type
    return [s!"{type} {name};"]

/-- A loop over the elements of a sequence. -/
def elementLoop (depth : Nat) (length : String) (body : Code) : Code :=
  let index := counter depth
  Code.braced s!"for (uint32_t {index} = 0; {index} < {length}; {index}++)" body

/-- An element of a sequence inside its loop. -/
def elementOf (depth : Nat) (sequence : String) : String :=
  let index := counter depth
  s!"({sequence})[{index}]"

/-- The length of a sequence, which must be known. -/
def lengthOf (expression : String) (length : Option String) : Emit String :=
  match length with
  | some text => return text
  | none => throw (.noLength (shown expression))

/-- Writes a value into a buffer, for at most `levels` levels of containers. -/
def writeWithin (types : TypeArena) (recovery : Recovery) (buffer : String) :
    Nat → TypeId → String → Option String → Nat → Emit Code
  | 0, _, _, _, _ => return []
  | levels + 1, type, value, length, depth =>
    let what := "write " ++ shown value
    match types.node type with
    | .primitive .boolean =>
      return leaveIf recovery s!"!HdfSbufWriteInt8({buffer}, {value} ? 1 : 0)" what
    | .primitive .string => return leaveIf recovery s!"!HdfSbufWriteString({buffer}, {value})" what
    | .primitive .fileDescriptor =>
      return leaveIf recovery s!"!HdfSbufWriteFileDescriptor({buffer}, {value})" what
    | .primitive .void => return []
    | .primitive primitive => do
      let suffix ← bufferSuffix types type primitive
      return leaveIf recovery s!"!HdfSbufWrite{suffix}({buffer}, {value})" what
    | .enum declared => do
      let suffix ← bufferSuffix types type declared.base
      let base := primitiveType declared.base
      return leaveIf recovery s!"!HdfSbufWrite{suffix}({buffer}, ({base}){value})" what
    | .struct record =>
      let address := addressOf value
      return leaveIf recovery s!"!{record.name}BlockMarshalling({buffer}, {address})" what
    | .union record =>
      let address := addressOf value
      return leaveIf recovery
        s!"!HdfSbufWriteUnpadBuffer({buffer}, (const uint8_t *){address}, sizeof(union {record.name}))"
        what
    | .array element | .list element => do
      let count ← lengthOf value length
      let body ← writeWithin types recovery buffer levels element (elementOf depth value) none
        (depth + 1)
      return leaveIf recovery s!"!HdfSbufWriteUint32({buffer}, {count})" (what ++ " size") ++
        elementLoop depth count body
    | .interface _ =>
      return leaveIf recovery
        s!"!HdfSbufWriteRemoteService({buffer}, {value}->AsObject({value}))" what
    | .map _ _ | .sequenceable _ | .queue _ => unsupported types type

/-- Writes a value into a buffer. -/
def write (types : TypeArena) (recovery : Recovery) (buffer : String) (type : TypeId)
    (value : String) (length : Option String) : Emit Code :=
  writeWithin types recovery buffer (types.size + 1) type value length 0

/-- Reads a value from a buffer, for at most `levels` levels of containers.  Strings are copied out
of the buffer and sequences are allocated. -/
def readWithin (types : TypeArena) (recovery : Recovery) (buffer : String) :
    Nat → TypeId → String → Option String → Nat → Emit Code
  | 0, _, _, _, _ => return []
  | levels + 1, type, target, length, depth =>
    let what := "read " ++ shown target
    match types.node type with
    | .primitive .boolean =>
      let address := addressOf target
      return leaveIf recovery s!"!HdfSbufReadInt8({buffer}, (int8_t *){address})" what
    | .primitive .string =>
      let copy := identifier target ++ "Cp"
      return Code.line s!"const char *{copy} = HdfSbufReadString({buffer});" ++
        leaveIf recovery s!"{copy} == NULL" what ++
        Code.line s!"{target} = strdup({copy});" ++
        leaveIf recovery s!"{target} == NULL" ("duplicate " ++ shown target)
    | .primitive .fileDescriptor =>
      return Code.line s!"{target} = HdfSbufReadFileDescriptor({buffer});" ++
        leaveIf recovery s!"{target} < 0" what
    | .primitive .void => return []
    | .primitive primitive => do
      let suffix ← bufferSuffix types type primitive
      let address := addressOf target
      return leaveIf recovery s!"!HdfSbufRead{suffix}({buffer}, {address})" what
    | .enum declared => do
      let suffix ← bufferSuffix types type declared.base
      let base := primitiveType declared.base
      let temporary := identifier target ++ "Tmp"
      return Code.line s!"{base} {temporary} = 0;" ++
        leaveIf recovery s!"!HdfSbufRead{suffix}({buffer}, &{temporary})" what ++
        Code.line s!"{target} = (enum {declared.name}){temporary};"
    | .struct record =>
      let address := addressOf target
      return leaveIf recovery s!"!{record.name}BlockUnmarshalling({buffer}, {address})" what
    | .union record =>
      let name := record.name
      let copy := identifier target ++ "Cp"
      let address := addressOf target
      return Code.line
          s!"const union {name} *{copy} = (const union {name} *)HdfSbufReadUnpadBuffer({buffer}, sizeof(union {name}));" ++
        leaveIf recovery s!"{copy} == NULL" what ++
        leaveIf recovery
          s!"memcpy_s({address}, sizeof(union {name}), {copy}, sizeof(union {name})) != EOK"
          ("memcpy " ++ shown target)
    | .array element | .list element => do
      let count ← lengthOf target length
      let elementType ← typeName types element
      let body ← readWithin types recovery buffer levels element (elementOf depth target) none
        (depth + 1)
      let address := addressOf count
      return leaveIf recovery s!"!HdfSbufReadUint32({buffer}, {address})" (what ++ " size") ++
        leaveIf recovery s!"{count} > HDI_BUFF_MAX_SIZE / sizeof({elementType})"
          ("check " ++ shown target ++ " size") ++
        Code.braced s!"if ({count} > 0)"
          (Code.line
              s!"{target} = ({elementType}*)OsalMemCalloc(sizeof({elementType}) * ({count}));" ++
            leaveIfWith recovery s!"{target} == NULL" ("malloc " ++ shown target)
              "HDF_ERR_MALLOC_FAIL" ++
            elementLoop depth count body)
    | .interface declared =>
      let remote := identifier target ++ "Remote"
      return Code.line s!"struct HdfRemoteService *{remote} = HdfSbufReadRemoteService({buffer});" ++
        leaveIf recovery s!"{remote} == NULL" what ++
        Code.line s!"{target} = {declared.name}GetFromRemote({remote});" ++
        leaveIf recovery s!"{target} == NULL" ("bind " ++ shown target)
    | .map _ _ | .sequenceable _ | .queue _ => unsupported types type

/-- Reads a value from a buffer. -/
def read (types : TypeArena) (recovery : Recovery) (buffer : String) (type : TypeId)
    (target : String) (length : Option String) : Emit Code :=
  readWithin types recovery buffer (types.size + 1) type target length 0

/-- Reads elements into storage that is large enough. -/
def readElements (types : TypeArena) (recovery : Recovery) (buffer : String) (element : TypeId)
    (target length : String) : Emit Code := do
  let body ← readWithin types recovery buffer (types.size + 1) element (elementOf 0 target) none 1
  return elementLoop 0 length body

/-- Whether a value owns memory or a descriptor, for at most `levels` levels of members. -/
def ownsWithin (types : TypeArena) : Nat → TypeId → Bool
  | 0, _ => false
  | levels + 1, type =>
    match types.node type with
    | .primitive .string | .primitive .fileDescriptor => true
    | .array _ | .list _ => true
    | .struct record => record.members.any fun member => ownsWithin types levels member.type
    | _ => false

/-- Whether a value owns memory or a descriptor that must be released. -/
def owns (types : TypeArena) (type : TypeId) : Bool := ownsWithin types (types.size + 1) type

/-- Releases what a value owns, for at most `levels` levels of containers. -/
def releaseWithin (types : TypeArena) :
    Nat → TypeId → String → Option String → Nat → Emit Code
  | 0, _, _, _, _ => return []
  | levels + 1, type, target, length, depth =>
    match types.node type with
    | .primitive .string =>
      return Code.braced s!"if ({target} != NULL)"
        (Code.lines [s!"OsalMemFree({target});", s!"{target} = NULL;"])
    | .primitive .fileDescriptor =>
      return Code.braced s!"if ({target} >= 0)"
        (Code.lines [s!"close({target});", s!"{target} = -1;"])
    | .struct record =>
      let address := addressOf target
      return Code.when (owns types type) (Code.line s!"{record.name}Free({address}, false);")
    | .array element | .list element => do
      let elements ←
        if owns types element then do
          let count ← lengthOf target length
          let body ← releaseWithin types levels element (elementOf depth target) none (depth + 1)
          pure (elementLoop depth count body)
        else pure []
      return Code.braced s!"if ({target} != NULL)"
        (elements ++ Code.lines [s!"OsalMemFree({target});", s!"{target} = NULL;"])
    | _ => return []

/-- Releases what a value owns. -/
def release (types : TypeArena) (type : TypeId) (target : String) (length : Option String) :
    Emit Code :=
  releaseWithin types (types.size + 1) type target length 0

/-- Whether a type is a descriptor or a sequence of them. -/
def usesDescriptor (types : TypeArena) (type : TypeId) : Bool :=
  types.primitive? ((types.element? type).getD type) == some .fileDescriptor

end DriverIdl.CCode
