import DriverIdl.Proofs.Wire.Conformance
import DriverIdl.Proofs.Wire.Unfolding

/-!
# Values across the wire

What is written for a value that conforms to a type is read back as the canonical form of the value.
The statement composes along the structure of values: a run of parts is read back part by part, and
each kind of type adds the few bytes of its own.
-/

namespace DriverIdl

namespace IntShape

/-- A number within its shape is recovered from its bit pattern. -/
theorem toInt_ofInt {shape : IntShape} {number : Int} (low : shape.least ≤ number)
    (high : number ≤ shape.greatest) : shape.toInt (BitVec.ofInt shape.bits number) = number := by
  cases shape with
  | i8 | i16 | i32 | i64 =>
      simp only [least, greatest, isSigned, bits, bytes, Nat.pow_eq, ↓reduceIte] at low high
      simp only [toInt, isSigned, ↓reduceIte, BitVec.toInt_ofInt, bits, bytes]
      apply Int.bmod_eq_of_le <;> omega
  | u8 | u16 | u32 | u64 =>
      simp only [least, greatest, isSigned, bits, bytes, Nat.pow_eq, Bool.false_eq_true,
        ↓reduceIte] at low high
      simp only [toInt, isSigned, Bool.false_eq_true, ↓reduceIte, BitVec.toNat_ofInt, bits, bytes]
      omega

end IntShape

theorem Primitive.range?_eq_some {primitive : Primitive} {least greatest : Int}
    (range : primitive.range? = some (least, greatest)) :
    ∃ shape, primitive.shape? = some shape ∧ shape.least = least ∧ shape.greatest = greatest := by
  obtain ⟨shape, shaped, same⟩ := Option.map_eq_some_iff.mp range
  obtain ⟨rfl, rfl⟩ := Prod.mk.inj same
  exact ⟨shape, shaped, rfl, rfl⟩

namespace Wire

open Parcel

section Simple

variable {arena : TypeArena} {type : TypeId} {read : TypeId → Read Value}

theorem transfers_primitive {primitive : Primitive} {value : Value} {write : Write Unit}
    (node : arena.node type = .primitive primitive)
    (written : writePrimitive? primitive value = some write)
    (stored : Transfers write (readPrimitive primitive) value) :
    Transfers (writeSimple arena type value) (readRule arena read type) value := by
  simp only [writeSimple, readRule, node, written]
  exact stored.adaptRead _

theorem writePrimitive?_int {primitive : Primitive} {shape : IntShape}
    (shaped : primitive.shape? = some shape) (pattern : BitVec shape.bits) :
    writePrimitive? primitive (.int shape pattern) =
      some (Parcel.Write.number shape.bytes pattern.toNat) := by
  cases primitive <;> cases shaped <;> rfl

theorem readPrimitive_of_shape {primitive : Primitive} {shape : IntShape}
    (shaped : primitive.shape? = some shape) :
    readPrimitive primitive = readPrimitive.integer shape := by
  cases primitive <;> cases shaped <;> rfl

theorem transfers_integer {primitive : Primitive} {shape : IntShape}
    (shaped : primitive.shape? = some shape) (pattern : BitVec shape.bits) :
    Transfers (Parcel.Write.number shape.bytes pattern.toNat : Write Unit)
      (readPrimitive primitive) (.int shape pattern) := by
  rw [readPrimitive_of_shape shaped]
  exact (transfers_toNat shape.bytes pattern).word (Value.int shape)

theorem transfers_enum {base : Primitive} {number least greatest : Int}
    (range : base.range? = some (least, greatest)) (low : least ≤ number)
    (high : number ≤ greatest) :
    Transfers (writeEnum base number) (readEnum base) (.enum number) := by
  obtain ⟨shape, shaped, rfl, rfl⟩ := Primitive.range?_eq_some range
  have held : shape.holds number := by
    rw [IntShape.holds, decide_eq_true low, decide_eq_true high, Bool.and_true]
  have recovered : Value.enum number =
      Value.enum (shape.toInt (BitVec.ofInt shape.bits number)) := by
    rw [IntShape.toInt_ofInt low high]
  simp only [writeEnum, readEnum, shaped, if_pos held]
  rw [recovered]
  exact ((transfers_toNat shape.bytes (BitVec.ofInt shape.bits number)).adaptRead _).word
    fun pattern => Value.enum (shape.toInt pattern)

theorem transfers_union {block : List UInt8} (size : arena.fixedSize? type = some block.length) :
    Transfers (writeUnion arena type block) (do
      let size ← plainSize arena type
      let block ← (Parcel.Read.raw size).adaptExcept Error.parcel
      return Value.union block) (.union block) := by
  have stored : Transfers (Parcel.Write.raw block : Write Unit) (Parcel.Read.raw block.length)
      block := transfers_raw block
  simp only [writeUnion, plainSize, size, pure_bind, ne_eq, not_true_eq_false, ↓reduceIte]
  exact (stored.adaptRead Error.parcel).map Value.union

theorem transfers_queue {element : TypeId} {descriptor : QueueMeta}
    (size : arena.fixedSize? element = some descriptor.elementSize.toNat) :
    Transfers (writeQueue arena type element descriptor) readQueue (.queue descriptor) := by
  have rebuilt : (⟨BitVec.ofNat 32 descriptor.fd.toNat,
      BitVec.ofNat 32 descriptor.elementSize.toNat, BitVec.ofNat 32 descriptor.elementCount.toNat,
      descriptor.synchronized⟩ : QueueMeta) = descriptor := by
    simp only [BitVec.ofNat_toNat, BitVec.setWidth_eq]
  simp only [writeQueue, plainSize, size, pure_bind, ne_eq, not_true_eq_false, ↓reduceIte]
  apply (transfers_toNat 4 descriptor.fd).bind
  apply (transfers_toNat 4 descriptor.elementSize).bind
  apply (transfers_toNat 4 descriptor.elementCount).bind
  apply (transfers_bool descriptor.synchronized).andThen
  rw [rebuilt]
  exact .pure _

end Simple

section Loops

variable {α β γ : Type}

theorem transfers_readEach {write : γ → Write Unit} (key : γ → α) (read : α → Read β)
    {items : List γ} {results : List β}
    (each : List.Forall₂ (fun item result => Transfers (write item) (read (key item)) result)
      items results) (known : List β) :
    Transfers (items.forM write) (readEach read (items.map key) known)
      (known.reverse ++ results) := by
  induction each generalizing known with
  | nil =>
      rw [List.append_nil]
      exact .pure _
  | @cons item result rest others transfers _ ih =>
      have continued := ih (result :: known)
      rw [List.reverse_cons, List.append_assoc, List.singleton_append] at continued
      exact transfers.bind continued

theorem readMany_eq_readEach (read : Read β) (items : List α) (known : List β) :
    readMany read items.length known = readEach (fun _ => read) (items.map id) known := by
  induction items generalizing known with
  | nil => rfl
  | cons item rest ih =>
      have continued : readMany read rest.length =
          readEach (fun _ => read) (rest.map id) := funext ih
      rw [List.length_cons, readMany, List.map_cons, readEach, continued]

/-- A count of items and the items behind it are read back as one list. -/
theorem transfers_counted {write : α → Write Unit} {read : Read β} {form : α → β} {items : List α}
    (fits : items.length ≤ maxLength)
    (each : ∀ item ∈ items, Transfers (write item) read (form item)) (convert : List β → Value) :
    Transfers (do
      writeCount items.length
      items.forM write) (do
      let count ← Parcel.Read.length.adaptExcept Error.parcel
      let results ← readMany read count []
      return convert results) (convert (items.map form)) := by
  have counted := ((transfers_length fits).adaptWrite Error.parcel).adaptRead Error.parcel
  have forms : List.Forall₂ (fun item result => Transfers (write item) read result) items
      (items.map form) :=
    List.forall₂_map_right_iff.mpr (List.forall₂_same.mpr each)
  have listed := transfers_readEach id (fun _ => read) forms []
  rw [← readMany_eq_readEach] at listed
  exact counted.bind (listed.map convert)

theorem forall₂_filterMap {relation : α → β → Prop} {form : α → Option β}
    {items : List α}
    (each : ∀ item ∈ items, ∃ result, form item = some result ∧ relation item result) :
    List.Forall₂ relation items (items.filterMap form) := by
  induction items with
  | nil => exact .nil
  | cons item rest ih =>
      obtain ⟨result, formed, related⟩ := each item List.mem_cons_self
      rw [List.filterMap_cons_some formed]
      exact .cons related (ih fun later listed => each later (List.mem_cons_of_mem _ listed))

end Loops

section Parts

variable {arena : TypeArena} {type : TypeId}

/-- Writes the field of a struct value that stands for a member. -/
def writeField (arena : TypeArena) (record : RecordType) (fields : List (String × Value))
    (member : Member) : Write Unit :=
  match Value.lookup member.name fields with
  | some value => writeValue arena member.type value
  | none => throw (.marshal (.missingMember record.name member.name))

/-- Writes the key of an entry and the value behind it. -/
def writeEntry (arena : TypeArena) (keyType valueType : TypeId) (entry : Value × Value) :
    Write Unit := do
  writeValue arena keyType entry.1
  writeValue arena valueType entry.2

theorem fieldWriters_eq_map (fields : List (String × Value)) :
    fieldWriters arena fields =
      fields.map fun field => (field.1, fun type => writeValue arena type field.2) := by
  induction fields with
  | nil => rw [fieldWriters, List.map_nil]
  | cons field rest ih => rw [fieldWriters, ih, List.map_cons]

theorem writeElements_eq_forM (elements : List Value) :
    writeElements arena type elements = elements.forM (writeValue arena type) := by
  induction elements with
  | nil =>
      rw [writeElements]
      rfl
  | cons value rest ih =>
      rw [writeElements, ih]
      rfl

theorem writeEntries_eq_forM {key value : TypeId} (entries : List (Value × Value)) :
    writeEntries arena key value entries = entries.forM (writeEntry arena key value) := by
  induction entries with
  | nil =>
      rw [writeEntries]
      rfl
  | cons entry rest ih =>
      rw [writeEntries, ih]
      change _ = (writeEntry arena key value entry >>= fun _ => _)
      rw [writeEntry, bind_assoc]

theorem writeMembers_eq_forM (record : RecordType) (fields : List (String × Value))
    (members : List Member) :
    writeMembers record (fieldWriters arena fields) members =
      members.forM (writeField arena record fields) := by
  induction members with
  | nil => rfl
  | cons member rest ih =>
      rw [writeMembers, ih, fieldWriters_eq_map,
        lookup_map_fields fun value type => writeValue arena type value]
      change _ = (writeField arena record fields member >>= fun _ => _)
      rw [writeField]
      cases Value.lookup member.name fields with
      | none => rfl
      | some value => rfl

theorem node_of_element? {element : TypeId} (holds : arena.element? type = some element) :
    arena.node type = .array element ∨ arena.node type = .list element := by
  rw [TypeArena.element?] at holds
  split at holds
  · rename_i node
    cases holds
    exact .inl node
  · rename_i node
    cases holds
    exact .inr node
  · cases holds

theorem writeValue_seq {element : TypeId} (holds : arena.element? type = some element)
    (elements : List Value) :
    writeValue arena type (.seq elements) = (do
      writeCount elements.length
      elements.forM (writeValue arena element)) := by
  rcases node_of_element? holds with node | node
  · simp only [writeValue, node, writeElements_eq_forM]
  · simp only [writeValue, node, writeElements_eq_forM]

theorem readRule_seq {element : TypeId} (holds : arena.element? type = some element)
    (read : TypeId → Read Value) :
    readRule arena read type = (do
      let count ← Parcel.Read.length.adaptExcept Error.parcel
      let elements ← readMany (read element) count []
      return Value.seq elements) := by
  rcases node_of_element? holds with node | node
  · simp only [readRule, node]
  · simp only [readRule, node]

theorem transfers_field {record : RecordType} {fields : List (String × Value)} {member : Member}
    (present : (Value.lookup member.name fields).isSome)
    (transfers : ∀ value, Value.lookup member.name fields = some value →
      Transfers (writeValue arena member.type value) (readValue arena member.type)
        (canonical arena member.type value)) :
    ∃ field, canonicalMember arena fields member = some field ∧
      Transfers (writeField arena record fields member) (do
        return (member.name, ← readValue arena member.type)) field := by
  obtain ⟨value, found⟩ := Option.isSome_iff_exists.mp present
  have written : writeField arena record fields member = writeValue arena member.type value := by
    simp only [writeField, found]
  refine ⟨(member.name, canonical arena member.type value), ?_, ?_⟩
  · rw [canonicalMember, found, Option.map_some]
  · rw [written]
    exact (transfers value found).map fun result => (member.name, result)

end Parts

section Values

variable {arena : TypeArena} {type : TypeId}

/-- What is written for a conforming value is read back as the canonical form of the value. -/
theorem transfers_of_conforms (acyclic : arena.Acyclic) {value : Value}
    (conforms : Conforms arena type value) :
    Transfers (writeValue arena type value) (readValue arena type)
      (canonical arena type value) := by
  induction conforms with rw [readValue_eq_readRule acyclic]
  | boolean node => exact transfers_primitive node rfl ((transfers_bool _).map Value.bool)
  | @integer type primitive shape pattern node shaped =>
      exact transfers_primitive node (writePrimitive?_int shaped pattern)
        (transfers_integer shaped pattern)
  | float node => exact transfers_primitive node rfl ((transfers_toNat 4 _).word Value.f32)
  | double node => exact transfers_primitive node rfl ((transfers_toNat 8 _).word Value.f64)
  | string node fits =>
      exact transfers_primitive node rfl
        (((transfers_string fits).adaptWrite Error.parcel).map Value.string)
  | descriptor node => exact transfers_primitive node rfl ((transfers_toNat 4 _).word Value.fd)
  | void node => exact transfers_primitive node rfl (.pure Value.void)
  | enum node range low high =>
      simp only [writeValue, writeSimple, readRule, node, canonical]
      exact transfers_enum range low high
  | @struct type record fields node present conform ih =>
      have each : List.Forall₂ (fun member field =>
          Transfers (writeField arena record fields member) (do
            return (member.name, ← readValue arena member.type)) field)
          record.members (record.members.filterMap (canonicalMember arena fields)) :=
        forall₂_filterMap fun member listed =>
          transfers_field (present member listed) (ih member listed)
      have members := (transfers_readEach id (fun (member : Member) => do
        return (member.name, ← readValue arena member.type)) each []).map Value.struct
      rw [List.map_id] at members
      simp only [writeValue, readRule, node, canonical_struct node, writeMembers_eq_forM]
      exact members
  | union node size =>
      simp only [writeValue, writeSimple, readRule, node, canonical]
      exact transfers_union size
  | sequence holds fits conform ih =>
      rw [writeValue_seq holds, readRule_seq holds, canonical_seq holds]
      exact transfers_counted fits ih Value.seq
  | @map type key value entries node fits keys values keysIh valuesIh =>
      simp only [writeValue, readRule, node, canonical_map node, writeEntries_eq_forM]
      apply transfers_counted fits
      intro entry listed
      exact (keysIh entry listed).bind ((valuesIh entry listed).map fun result => (_, result))
  | remote node =>
      simp only [writeValue, writeSimple, readRule, node, canonical]
      exact ((transfers_toNat 8 _).adaptRead Error.parcel).word Value.remote
  | sequenceable node fits =>
      simp only [writeValue, writeSimple, readRule, node, canonical]
      exact (((transfers_bytes fits).adaptWrite Error.parcel).adaptRead Error.parcel).map
        Value.sequenceable
  | queue node size =>
      simp only [writeValue, writeSimple, readRule, node, canonical]
      exact (transfers_queue size).adaptRead Error.parcel

end Values

end Wire

end DriverIdl
