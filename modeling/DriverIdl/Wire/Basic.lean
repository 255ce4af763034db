import DriverIdl.Model.Types
import DriverIdl.Parcel.Basic
import DriverIdl.Text.Quoted

/-!
# The wire format of values

Each type has one rule for how its values stand in a parcel: scalars at their width, enums at the
width of their base, structs member by member, unions as raw blocks, and containers as a count with
the elements behind it.  `writeValue` appends a value by the rule of a type and `readValue` reads one
back.
-/

namespace DriverIdl.Wire

/-- Why a value does not fit its type or a call its method. -/
inductive Fault where
  | mismatch (kind spelling : String)
  | enumRange (value : Int) (base : Primitive)
  | notEnumBase (base : Primitive)
  | noFixedSize (spelling : String)
  | unionSize (spelling : String) (size found : Nat)
  | queueSize (spelling : String) (size found : Nat)
  | missingMember (struct member : String)
  | noUnionMember (union member : String)
  | argumentCount (method : String) (expected : Nat) (what : String) (found : Nat)
  | trailingBytes (count : Nat) (method : String)
  deriving DecidableEq, Inhabited

/-- The sentence that tells a fault. -/
def Fault.message : Fault → String
  | .mismatch kind spelling => "cannot marshal a " ++ kind ++ " value as " ++ Text.quote spelling
  | .enumRange value base =>
    "enum value " ++ toString value ++ " does not fit in " ++ base.name
  | .notEnumBase base => base.name ++ " is not an enum base"
  | .noFixedSize spelling => Text.quote spelling ++ " has no fixed size"
  | .unionSize spelling size found =>
    "union " ++ Text.quote spelling ++ s!" needs {size} byte(s), found {found}"
  | .queueSize spelling size found =>
    "queue elements of " ++ Text.quote spelling ++ s!" are {size} byte(s), not {found}"
  | .missingMember struct member =>
    "struct " ++ Text.quote struct ++ " is missing member " ++ Text.quote member
  | .noUnionMember union member =>
    "union " ++ Text.quote union ++ " has no member " ++ Text.quote member
  | .argumentCount method expected what found =>
    Text.quote method ++ s!" takes {expected} {what} argument(s), {found} given"
  | .trailingBytes count method =>
    s!"{count} trailing byte(s) after the request of " ++ Text.quote method

/-- Why writing or reading a value fails. -/
inductive Error where
  | marshal (fault : Fault)
  | parcel (error : Parcel.Error)
  deriving DecidableEq, Inhabited

/-- The sentence that tells a failure. -/
def Error.message : Error → String
  | .marshal fault => "marshal error: " ++ fault.message
  | .parcel error => error.message

/-- Writing values. -/
abbrev Write := Parcel.Write Error

/-- Reading values. -/
abbrev Read := Parcel.Read Error

/-- Refuses a value whose kind does not suit its type. -/
def mismatch {α σ : Type} (arena : TypeArena) (type : TypeId) (value : Value) : EStateM Error σ α :=
  throw (.marshal (.mismatch value.kindName (arena.spelling type)))

/-- The size of a type that must be plain data. -/
def plainSize {σ : Type} (arena : TypeArena) (type : TypeId) : EStateM Error σ Nat :=
  match arena.fixedSize? type with
  | some size => return size
  | none => throw (.marshal (.noFixedSize (arena.spelling type)))

/-- Writes a value of a primitive type; none if its kind does not suit the type. -/
def writePrimitive? (primitive : Primitive) (value : Value) : Option (Write Unit) :=
  match primitive, value with
  | .boolean, .bool truth => some (Parcel.Write.bool truth)
  | .float, .f32 pattern => some (Parcel.Write.number 4 pattern.toNat)
  | .double, .f64 pattern => some (Parcel.Write.number 8 pattern.toNat)
  | .string, .string text => some ((Parcel.Write.string text).adaptExcept .parcel)
  | .fileDescriptor, .fd pattern => some (Parcel.Write.number 4 pattern.toNat)
  | .void, .void => some (return ())
  | _, .int shape pattern =>
    if primitive.shape? = some shape then some (Parcel.Write.number shape.bytes pattern.toNat)
    else none
  | _, _ => none

/-- Writes an enum value at the width of its base. -/
def writeEnum (base : Primitive) (value : Int) : Write Unit :=
  match base.shape? with
  | none => throw (.marshal (.notEnumBase base))
  | some shape =>
    if shape.holds value then
      Parcel.Write.number shape.bytes (BitVec.ofInt shape.bits value).toNat
    else throw (.marshal (.enumRange value base))

/-- Writes the block of a union, which has the size of the largest member. -/
def writeUnion (arena : TypeArena) (type : TypeId) (block : List UInt8) : Write Unit := do
  let size ← plainSize arena type
  if block.length ≠ size then
    throw (.marshal (.unionSize (arena.spelling type) size block.length))
  Parcel.Write.raw block

/-- Writes the descriptor of a queue. -/
def writeQueue (arena : TypeArena) (type element : TypeId) (queue : QueueMeta) : Write Unit := do
  let size ← plainSize arena element
  if queue.elementSize.toNat ≠ size then
    throw (.marshal (.queueSize (arena.spelling type) size queue.elementSize.toNat))
  Parcel.Write.number 4 queue.fd.toNat
  Parcel.Write.number 4 queue.elementSize.toNat
  Parcel.Write.number 4 queue.elementCount.toNat
  Parcel.Write.bool queue.synchronized

/-- Writes a count of elements. -/
def writeCount (count : Nat) : Write Unit := (Parcel.Write.length count).adaptExcept .parcel

/-- Writes the declared members of a struct, given how each field of the value is written. -/
def writeMembers (record : RecordType) (writers : List (String × (TypeId → Write Unit))) :
    List Member → Write Unit
  | [] => return ()
  | member :: rest => do
    match writers.lookup member.name with
    | some writer => writer member.type
    | none => throw (.marshal (.missingMember record.name member.name))
    writeMembers record writers rest

/-- Appends a value that holds no other values by the rule of a type. -/
def writeSimple (arena : TypeArena) (type : TypeId) (value : Value) : Write Unit :=
  match arena.node type, value with
  | .primitive primitive, _ =>
    match writePrimitive? primitive value with
    | some write => write
    | none => mismatch arena type value
  | .enum declared, .enum number => writeEnum declared.base number
  | .union _, .union block => writeUnion arena type block
  | .interface _, .remote handle => Parcel.Write.number 8 handle.toNat
  | .sequenceable _, .sequenceable payload =>
    (Parcel.Write.bytes payload).adaptExcept .parcel
  | .queue element, .queue descriptor => writeQueue arena type element descriptor
  | _, _ => mismatch arena type value

mutual

/-- Appends a value by the rule of a type. -/
def writeValue (arena : TypeArena) (type : TypeId) : Value → Write Unit
  | .seq elements =>
    match arena.node type with
    | .array element | .list element => do
      writeCount elements.length
      writeElements arena element elements
    | _ => mismatch arena type (.seq elements)
  | .map entries =>
    match arena.node type with
    | .map key value => do
      writeCount entries.length
      writeEntries arena key value entries
    | _ => mismatch arena type (.map entries)
  | .struct fields =>
    match arena.node type with
    | .struct record => writeMembers record (fieldWriters arena fields) record.members
    | _ => mismatch arena type (.struct fields)
  | value => writeSimple arena type value

/-- Appends the elements of a sequence. -/
def writeElements (arena : TypeArena) (type : TypeId) : List Value → Write Unit
  | [] => return ()
  | value :: rest => do
    writeValue arena type value
    writeElements arena type rest

/-- Appends the entries of a map. -/
def writeEntries (arena : TypeArena) (keyType valueType : TypeId) :
    List (Value × Value) → Write Unit
  | [] => return ()
  | (key, value) :: rest => do
    writeValue arena keyType key
    writeValue arena valueType value
    writeEntries arena keyType valueType rest

/-- How each field of a struct value is written once its type is known. -/
def fieldWriters (arena : TypeArena) :
    List (String × Value) → List (String × (TypeId → Write Unit))
  | [] => []
  | (name, value) :: rest =>
    (name, fun type => writeValue arena type value) :: fieldWriters arena rest

end

/-- Reads a value of a primitive type. -/
def readPrimitive (primitive : Primitive) : Parcel.Read Parcel.Error Value :=
  match primitive with
  | .boolean => return .bool (← Parcel.Read.bool)
  | .float => return .f32 (BitVec.ofNat 32 (← Parcel.Read.number 4))
  | .double => return .f64 (BitVec.ofNat 64 (← Parcel.Read.number 8))
  | .string => return .string (← Parcel.Read.string)
  | .fileDescriptor => return .fd (BitVec.ofNat 32 (← Parcel.Read.number 4))
  | .void => return .void
  | .byte => integer .i8
  | .short => integer .i16
  | .int => integer .i32
  | .long => integer .i64
  | .uchar => integer .u8
  | .ushort => integer .u16
  | .uint => integer .u32
  | .ulong => integer .u64
where
  integer (shape : IntShape) : Parcel.Read Parcel.Error Value :=
    return .int shape (BitVec.ofNat shape.bits (← Parcel.Read.number shape.bytes))

/-- Reads an enum value at the width of its base. -/
def readEnum (base : Primitive) : Read Value :=
  match base.shape? with
  | none => throw (.marshal (.notEnumBase base))
  | some shape => do
    let number ← (Parcel.Read.number shape.bytes).adaptExcept .parcel
    return .enum (shape.toInt (BitVec.ofNat shape.bits number))

/-- Reads the descriptor of a queue. -/
def readQueue : Parcel.Read Parcel.Error Value := do
  let fd ← Parcel.Read.number 4
  let elementSize ← Parcel.Read.number 4
  let elementCount ← Parcel.Read.number 4
  let synchronized ← Parcel.Read.bool
  return .queue ⟨BitVec.ofNat 32 fd, BitVec.ofNat 32 elementSize, BitVec.ofNat 32 elementCount,
    synchronized⟩

/-- Reads `count` values behind the ones in `known`, which is held in reverse. -/
def readMany {α : Type} (read : Read α) : Nat → List α → Read (List α)
  | 0, known => return known.reverse
  | count + 1, known => do
    let value ← read
    readMany read count (value :: known)

/-- Reads values of several types in order, behind the ones in `known`, which is held in reverse. -/
def readEach {α β : Type} (read : α → Read β) : List α → List β → Read (List β)
  | [], known => return known.reverse
  | item :: rest, known => do
    let value ← read item
    readEach read rest (value :: known)

/-- Reads a value by the rule of a type, given how values of the types in it are read. -/
def readRule (arena : TypeArena) (read : TypeId → Read Value) (type : TypeId) : Read Value :=
  match arena.node type with
  | .primitive primitive => (readPrimitive primitive).adaptExcept .parcel
  | .enum declared => readEnum declared.base
  | .struct record => do
    let fields ← readEach (fun (member : Member) => do
      return (member.name, ← read member.type)) record.members []
    return .struct fields
  | .union _ => do
    let size ← plainSize arena type
    let block ← (Parcel.Read.raw size).adaptExcept .parcel
    return .union block
  | .array element | .list element => do
    let count ← Parcel.Read.length.adaptExcept .parcel
    let elements ← readMany (read element) count []
    return .seq elements
  | .map key value => do
    let count ← Parcel.Read.length.adaptExcept .parcel
    let entries ← readMany (do
      let key ← read key
      return (key, ← read value)) count []
    return .map entries
  | .interface _ => do
    let handle ← (Parcel.Read.number 8).adaptExcept .parcel
    return .remote (BitVec.ofNat 64 handle)
  | .sequenceable _ => do
    let payload ← Parcel.Read.bytes.adaptExcept .parcel
    return .sequenceable payload
  | .queue _ => readQueue.adaptExcept .parcel

/-- Reads a value by the rule of a type, at most `depth` levels deep. -/
def readWithin (arena : TypeArena) : Nat → TypeId → Read Value
  | 0, type => throw (.marshal (.noFixedSize (arena.spelling type)))
  | depth + 1, type => readRule arena (readWithin arena depth) type

/-- Reads a value by the rule of a type.  Structs nest at most as deep as there are types, and every
container takes bytes for its count, so types and bytes together bound the depth. -/
def readValue (arena : TypeArena) (type : TypeId) : Read Value := fun reader =>
  readWithin arena ((arena.size + 1) * (reader.remaining + 2)) type reader

/-- The bytes of a value, or why it has none. -/
def encode (arena : TypeArena) (type : TypeId) (value : Value) : Except Error (List UInt8) :=
  match writeValue arena type value #[] with
  | .ok _ bytes => .ok bytes.toList
  | .error failure _ => .error failure

/-- The member of a union with a name. -/
def unionMember (record : RecordType) (name : String) : Except Error Member :=
  match record.members.find? fun member => member.name == name with
  | some member => .ok member
  | none => .error (.marshal (.noUnionMember record.name name))

/-- The block of a union that holds a value in one member, filled up with zeros. -/
def packUnion (arena : TypeArena) (type : TypeId) (name : String) (value : Value) :
    Except Error Value :=
  match arena.node type with
  | .union record =>
    match arena.fixedSize? type with
    | none => .error (.marshal (.noFixedSize (arena.spelling type)))
    | some size => do
      let member ← unionMember record name
      let bytes ← encode arena member.type value
      return .union (bytes.take size ++ List.replicate (size - bytes.length) 0)
  | _ => .error (.marshal (.mismatch value.kindName (arena.spelling type)))

/-- The value that one member sees in the block of a union. -/
def unpackUnion (arena : TypeArena) (type : TypeId) (name : String) (value : Value) :
    Except Error Value :=
  match arena.node type, value with
  | .union record, .union block => do
    let member ← unionMember record name
    match readValue arena member.type (.start block.toArray) with
    | .ok result _ => .ok result
    | .error failure _ => .error failure
  | _, _ => .error (.marshal (.mismatch value.kindName (arena.spelling type)))

end DriverIdl.Wire
