import DriverIdl.Parsing.State

/-!
# Type expressions

A type expression is a primitive type, a container or a declared type, with any number of array
brackets behind it.  Equal expressions of one file denote one type.
-/

namespace DriverIdl

/-- Why a language cannot express a type. -/
def supportFault? (options : Options) (types : TypeArena) (type : TypeId) : Option SupportFault :=
  match options.language with
  | none => none
  | some .cpp => none
  | some .c =>
    match types.node type with
    | .map _ _ => some .mapInC
    | .queue _ => some .queueInC
    | .sequenceable declared => some (.sequenceableInC declared.name)
    | .array element | .list element =>
      if (types.node element).isContainer then some (.nestedContainerInC (types.spelling type))
      else none
    | .primitive .fileDescriptor => if options.kernel then some .descriptorInKernel else none
    | .interface declared =>
      if options.kernel then some (.interfaceInKernel declared.name) else none
    | _ => none
  | some .java =>
    match types.node type with
    | .union record => some (.unionInJava record.name)
    | .queue _ => some .queueInJava
    | .interface declared =>
      if declared.isCallback then some (.callbackInJava declared.name) else none
    | _ => none

namespace Parse

/-- Refuses a type that the target language cannot express. -/
def checkSupport (options : Options) (type : TypeId) (place : Position) : Parse Unit := do
  match supportFault? options (← types) type with
  | some fault => fail place (.support fault)
  | none => return ()

/-- Refuses an interface inside a container. -/
def checkElement (type : TypeId) (place : Position) : Parse Unit := do
  match (← types).node type with
  | .interface declared => fail place (.interfaceElement declared.name)
  | _ => return ()

/-- Reads the type of an element by a production for types. -/
def elementType (typeExpression : Parse TypeId) : Parse TypeId := do
  let place := (← peek).place
  let type ← typeExpression
  checkElement type place
  return type

/-- Reads the integral type behind `unsigned`. -/
def unsignedType : Parse TypeId := do
  let token ← next
  match token.kind with
  | .char | .byte => return Primitive.uchar.id
  | .short => return Primitive.ushort.id
  | .int => return Primitive.uint.id
  | .long => return Primitive.ulong.id
  | _ => unexpected token "\"char\", \"short\", \"int\" or \"long\""

/-- Reads the element of `List`. -/
def listType (typeExpression : Parse TypeId) : Parse TypeId := do
  let _ ← expect .angleOpen "\"<\""
  let element ← elementType typeExpression
  let _ ← expect .angleClose "\">\""
  intern (.list element) (.list element)

/-- Reads the key and the value of `Map`. -/
def mapType (typeExpression : Parse TypeId) : Parse TypeId := do
  let _ ← expect .angleOpen "\"<\""
  let key ← elementType typeExpression
  let _ ← expect .comma "\",\""
  let value ← elementType typeExpression
  let _ ← expect .angleClose "\">\""
  intern (.map key value) (.map key value)

/-- Reads the element of `SharedMemQueue`, which must be plain data.  A type of the same file may still
contain itself by value here, and asking for its size comes to no end; the levels run out, and the
element is refused as one without a size. -/
def queueType (typeExpression : Parse TypeId) (place : Position) : Parse TypeId := do
  let _ ← expect .angleOpen "\"<\""
  let element ← elementType typeExpression
  let _ ← expect .angleClose "\">\""
  let arena ← types
  if (arena.fixedSize? element).isNone then
    fail place (.queueElement (arena.spelling element))
  intern (.queue element) (.queue element)

/-- Reads the rest of a declared type's name and looks it up. -/
def namedType (first : Token) : Parse TypeId := do
  let name ← dottedTail first.text
  let state ← get
  match state.unit.lookup? state.program.namespaces name with
  | some type => return type
  | none => fail first.place (.unknownType name)

/-- Reads one more pair of array brackets. -/
def arrayRound (place : Position) (type : TypeId) : Parse (TypeId ⊕ TypeId) := do
  if ← eat .bracketOpen then
    let _ ← expect .bracketClose "\"]\""
    checkElement type place
    return .inl (← intern (.array type) (.array type))
  else
    return .inr type

/-- Reads array brackets behind a type. -/
def arraySuffix (base : TypeId) (place : Position) : Parse TypeId :=
  loop (arrayRound place) base

/-- Reads what stands in front of array brackets, behind its first token. -/
def baseType (typeExpression : Parse TypeId) (token : Token) : Parse TypeId :=
  match token.kind with
  | .boolean => return Primitive.boolean.id
  | .byte | .char => return Primitive.byte.id
  | .short => return Primitive.short.id
  | .int => return Primitive.int.id
  | .long => return Primitive.long.id
  | .float => return Primitive.float.id
  | .double => return Primitive.double.id
  | .string => return Primitive.string.id
  | .fileDescriptor => return Primitive.fileDescriptor.id
  | .unsigned => unsignedType
  | .list => listType typeExpression
  | .map => mapType typeExpression
  | .sharedMemQueue => queueType typeExpression token.place
  | .identifier => namedType token
  | _ => unexpected token "a type"

/-- Reads a type expression with at most `depth` levels of containers. -/
def typeWithin (options : Options) : Nat → Parse TypeId
  | 0 => throw .resync
  | depth + 1 => do
    let token ← next
    let base ← baseType (typeWithin options depth) token
    let type ← arraySuffix base token.place
    checkSupport options type token.place
    return type

/-- Reads a type expression.  Each level of containers takes a token. -/
def typeExpression (options : Options) : Parse TypeId := do
  typeWithin options ((← get).tokens.length + 1)

end Parse

end DriverIdl
