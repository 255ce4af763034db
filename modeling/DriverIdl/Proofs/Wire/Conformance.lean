import DriverIdl.Wire.Basic
import Mathlib.Tactic.Basic

/-!
# Values of a type

`Conforms` says which values a type has on the wire, by the shape of the type alone.  A struct value
may hold its fields in any order and may hold more than the type declares; `canonical` cuts it down
to the declared members in the order of the declaration, at every depth.
-/

namespace DriverIdl.Wire

/-- A value that a type can carry: scalars of the kind of a primitive type, numbers within the base
of an enum, a conforming value under the name of each member of a struct, blocks of the size of a
union, and runs that are no longer than a parcel allows. -/
inductive Conforms (arena : TypeArena) : TypeId → Value → Prop
  | boolean {type : TypeId} {truth : Bool} (node : arena.node type = .primitive .boolean) :
    Conforms arena type (.bool truth)
  | integer {type : TypeId} {primitive : Primitive} {shape : IntShape}
    {pattern : BitVec shape.bits} (node : arena.node type = .primitive primitive)
    (shaped : primitive.shape? = some shape) : Conforms arena type (.int shape pattern)
  | float {type : TypeId} {pattern : BitVec 32} (node : arena.node type = .primitive .float) :
    Conforms arena type (.f32 pattern)
  | double {type : TypeId} {pattern : BitVec 64} (node : arena.node type = .primitive .double) :
    Conforms arena type (.f64 pattern)
  | string {type : TypeId} {text : String} (node : arena.node type = .primitive .string)
    (fits : text.utf8ByteSize ≤ Parcel.maxLength) : Conforms arena type (.string text)
  | descriptor {type : TypeId} {pattern : BitVec 32}
    (node : arena.node type = .primitive .fileDescriptor) : Conforms arena type (.fd pattern)
  | void {type : TypeId} (node : arena.node type = .primitive .void) : Conforms arena type .void
  | enum {type : TypeId} {declared : EnumType} {number least greatest : Int}
    (node : arena.node type = .enum declared)
    (range : declared.base.range? = some (least, greatest)) (low : least ≤ number)
    (high : number ≤ greatest) : Conforms arena type (.enum number)
  | struct {type : TypeId} {record : RecordType} {fields : List (String × Value)}
    (node : arena.node type = .struct record)
    (present : ∀ member ∈ record.members, (Value.lookup member.name fields).isSome)
    (conform : ∀ member ∈ record.members, ∀ value, Value.lookup member.name fields = some value →
      Conforms arena member.type value) : Conforms arena type (.struct fields)
  | union {type : TypeId} {record : RecordType} {block : List UInt8}
    (node : arena.node type = .union record) (size : arena.fixedSize? type = some block.length) :
    Conforms arena type (.union block)
  | sequence {type element : TypeId} {elements : List Value}
    (holds : arena.element? type = some element) (fits : elements.length ≤ Parcel.maxLength)
    (conform : ∀ value ∈ elements, Conforms arena element value) :
    Conforms arena type (.seq elements)
  | map {type key value : TypeId} {entries : List (Value × Value)}
    (node : arena.node type = .map key value) (fits : entries.length ≤ Parcel.maxLength)
    (keys : ∀ entry ∈ entries, Conforms arena key entry.1)
    (values : ∀ entry ∈ entries, Conforms arena value entry.2) : Conforms arena type (.map entries)
  | remote {type : TypeId} {declared : InterfaceType} {handle : BitVec 64}
    (node : arena.node type = .interface declared) : Conforms arena type (.remote handle)
  | sequenceable {type : TypeId} {declared : SequenceableType} {payload : List UInt8}
    (node : arena.node type = .sequenceable declared)
    (fits : payload.length ≤ Parcel.maxLength) : Conforms arena type (.sequenceable payload)
  | queue {type element : TypeId} {descriptor : QueueMeta}
    (node : arena.node type = .queue element)
    (size : arena.fixedSize? element = some descriptor.elementSize.toNat) :
    Conforms arena type (.queue descriptor)

mutual

/-- A value with every struct in it cut down to the declared members in the declared order. -/
def canonical (arena : TypeArena) (type : TypeId) : Value → Value
  | .seq elements =>
    match arena.element? type with
    | some element => .seq (canonicalElements arena element elements)
    | none => .seq elements
  | .map entries =>
    match arena.node type with
    | .map key value => .map (canonicalEntries arena key value entries)
    | _ => .map entries
  | .struct fields =>
    match arena.node type with
    | .struct record => .struct (record.members.filterMap fun member =>
        ((canonicalFields arena fields).lookup member.name).map fun form =>
          (member.name, form member.type))
    | _ => .struct fields
  | value => value

/-- The canonical forms of elements. -/
def canonicalElements (arena : TypeArena) (type : TypeId) : List Value → List Value
  | [] => []
  | value :: rest => canonical arena type value :: canonicalElements arena type rest

/-- The canonical forms of entries. -/
def canonicalEntries (arena : TypeArena) (keyType valueType : TypeId) :
    List (Value × Value) → List (Value × Value)
  | [] => []
  | (key, value) :: rest =>
    (canonical arena keyType key, canonical arena valueType value) ::
      canonicalEntries arena keyType valueType rest

/-- The canonical form of each field once its type is known. -/
def canonicalFields (arena : TypeArena) : List (String × Value) → List (String × (TypeId → Value))
  | [] => []
  | (name, value) :: rest =>
    (name, fun type => canonical arena type value) :: canonicalFields arena rest

end

section Forms

variable {arena : TypeArena} {type : TypeId}

/-- A named member of a struct value in canonical form. -/
def canonicalMember (arena : TypeArena) (fields : List (String × Value)) (member : Member) :
    Option (String × Value) :=
  (Value.lookup member.name fields).map fun value =>
    (member.name, canonical arena member.type value)

theorem canonicalElements_eq_map (elements : List Value) :
    canonicalElements arena type elements = elements.map (canonical arena type) := by
  induction elements with
  | nil => rfl
  | cons value rest ih => rw [canonicalElements, ih, List.map_cons]

theorem canonicalEntries_eq_map {key value : TypeId} (entries : List (Value × Value)) :
    canonicalEntries arena key value entries =
      entries.map fun entry => (canonical arena key entry.1, canonical arena value entry.2) := by
  induction entries with
  | nil => rfl
  | cons entry rest ih => rw [canonicalEntries, ih, List.map_cons]

theorem lookup_map_fields {β : Type} (convert : Value → β) (fields : List (String × Value))
    (name : String) :
    (fields.map fun field => (field.1, convert field.2)).lookup name =
      (Value.lookup name fields).map convert := by
  induction fields with
  | nil => rfl
  | cons field rest ih =>
      rw [List.map_cons, List.lookup_cons, Value.lookup]
      by_cases same : field.1 = name
      · simp [same]
      · have differs : (name == field.1) = false := beq_eq_false_iff_ne.mpr (Ne.symm same)
        simp only [differs, ih, beq_iff_eq, same, ↓reduceIte]

theorem canonicalFields_eq_map (fields : List (String × Value)) :
    canonicalFields arena fields =
      fields.map fun field => (field.1, fun type => canonical arena type field.2) := by
  induction fields with
  | nil => rfl
  | cons field rest ih => rw [canonicalFields, ih, List.map_cons]

theorem canonical_seq {element : TypeId} (holds : arena.element? type = some element)
    (elements : List Value) :
    canonical arena type (.seq elements) = .seq (elements.map (canonical arena element)) := by
  simp only [canonical, holds, canonicalElements_eq_map]

theorem canonical_map {key value : TypeId} (node : arena.node type = .map key value)
    (entries : List (Value × Value)) :
    canonical arena type (.map entries) =
      .map (entries.map fun entry =>
        (canonical arena key entry.1, canonical arena value entry.2)) := by
  simp only [canonical, node, canonicalEntries_eq_map]

theorem canonical_struct {record : RecordType} (node : arena.node type = .struct record)
    (fields : List (String × Value)) :
    canonical arena type (.struct fields) =
      .struct (record.members.filterMap (canonicalMember arena fields)) := by
  have forms : (fun member : Member =>
      ((canonicalFields arena fields).lookup member.name).map fun form =>
        (member.name, form member.type)) = canonicalMember arena fields := by
    funext member
    rw [canonicalFields_eq_map, lookup_map_fields fun value type => canonical arena type value,
      canonicalMember, Option.map_map]
    rfl
  simp only [canonical, node, forms]

end Forms

end DriverIdl.Wire
