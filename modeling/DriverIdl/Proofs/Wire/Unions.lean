import DriverIdl.Proofs.Parcel.RawReads
import DriverIdl.Proofs.Wire.Canonical
import DriverIdl.Proofs.Wire.FixedSize

/-!
# Values in the blocks of unions

The block of a union has the size of the largest member, so it has room for a value of any member:
the bytes of the value stand in front, and zeros behind them.  What is packed for a member is
unpacked for it again, since reading looks at no byte behind the value.
-/

namespace DriverIdl

namespace TypeArena

variable {arena : TypeArena}

/-- No member is larger than the largest. -/
theorem le_of_foldl_largest {sizes : TypeId → Option Nat} {members : List Member}
    {start largest : Nat}
    (found : members.foldl (fun largest member =>
      match largest, sizes member.type with
      | some most, some size => some (max most size)
      | _, _ => none) (some start) = some largest) :
    start ≤ largest ∧
      ∀ member ∈ members, ∃ size, sizes member.type = some size ∧ size ≤ largest := by
  induction members generalizing start with
  | nil => exact ⟨Nat.le_of_eq (Option.some.inj found), by simp⟩
  | cons member rest ih =>
      rw [List.foldl_cons] at found
      obtain ⟨startSized, -⟩ := isSome_of_foldl_sizes found
      cases sized : sizes member.type with
      | none => simp [sized] at startSized
      | some size =>
          simp only [sized] at found
          obtain ⟨most, others⟩ := ih found
          rw [List.forall_mem_cons]
          exact ⟨Nat.le_trans (Nat.le_max_left start size) most,
            ⟨size, sized, Nat.le_trans (Nat.le_max_right start size) most⟩, others⟩

/-- A member of a union is plain data and no larger than the union. -/
theorem fixedSize?_of_union_member (acyclic : arena.Acyclic) {union : TypeId} {record : RecordType}
    {largest : Nat} (node : arena.node union = .union record)
    (sized : arena.fixedSize? union = some largest) {member : Member}
    (listed : member ∈ record.members) :
    ∃ size, arena.fixedSize? member.type = some size ∧ size ≤ largest := by
  rw [fixedSize?_eq_sizeRule acyclic, sizeRule, node] at sized
  exact (le_of_foldl_largest sized).2 member listed

end TypeArena

namespace Wire

open Parcel

section Blocks

variable {arena : TypeArena} {union : TypeId} {record : RecordType} {size : Nat}

/-- A block of the size of its union is written as it is. -/
theorem writeValue_union (node : arena.node union = .union record) {block : List UInt8}
    (sized : arena.fixedSize? union = some block.length) :
    writeValue arena union (.union block) = Parcel.Write.raw block := by
  simp only [writeValue, writeSimple, node, writeUnion, plainSize, sized, pure_bind, ne_eq,
    not_true_eq_false, ↓reduceIte]

/-- A block of the size of its union is read as it is. -/
theorem reads_union (acyclic : arena.Acyclic) (node : arena.node union = .union record)
    {block : List UInt8} (sized : arena.fixedSize? union = some block.length) :
    Reads (readValue arena union) block (.union block) := by
  rw [readValue_eq_readRule acyclic, readRule, node]
  simp only [plainSize, sized, pure_bind]
  have taken : Reads ((Read.raw block.length).adaptExcept Error.parcel) block block :=
    (needs_raw block).reads.adapt _
  have whole : Reads ((Read.raw block.length).adaptExcept Error.parcel >>= fun block =>
      pure (Value.union block)) (block ++ []) (.union block) := taken.bind (.pure _)
  rwa [List.append_nil] at whole

/-- Packing fills the bytes of the value up with zeros. -/
theorem packUnion_of_encode (node : arena.node union = .union record)
    (sized : arena.fixedSize? union = some size) {name : String} {member : Member}
    (found : unionMember record name = .ok member) {value : Value} {bytes : List UInt8}
    (encoded : encode arena member.type value = .ok bytes) (fits : bytes.length ≤ size) :
    packUnion arena union name value =
      .ok (.union (bytes ++ List.replicate (size - bytes.length) 0)) := by
  simp only [packUnion, node, sized, found, encoded, bind, Except.bind,
    List.take_of_length_le fits]
  rfl

/-- Unpacking does not look at what stands behind the value. -/
theorem unpackUnion_of_reads (node : arena.node union = .union record) {name : String}
    {member : Member} (found : unionMember record name = .ok member) {bytes padding : List UInt8}
    {value : Value} (reads : Reads (readValue arena member.type) bytes value) :
    unpackUnion arena union name (.union (bytes ++ padding)) = .ok value := by
  have run := reads [] padding
  rw [← Reader.start_eq_between] at run
  simp only [unpackUnion, node, found, bind, Except.bind, run]

end Blocks

/-- A union never loses data.  Any value of the member with a name is packed into a block of the size
of the union that starts with all bytes of the value and goes on with zeros; the block is written as
a value of the union and read back unchanged, wherever it stands, and unpacking it for the member
gives the canonical form of the value. -/
theorem packUnion_keeps_value {arena : TypeArena} (acyclic : arena.Acyclic) {union : TypeId}
    {record : RecordType} (node : arena.node union = .union record) {size : Nat}
    (sized : arena.fixedSize? union = some size) {name : String} {member : Member}
    (found : record.members.find? (fun member => member.name == name) = some member) {value : Value}
    (conforms : Conforms arena member.type value) :
    ∃ bytes block padding, encode arena member.type value = .ok bytes ∧
      packUnion arena union name value = .ok (.union block) ∧
      block = bytes ++ padding ∧ (∀ byte ∈ padding, byte = 0) ∧ block.length = size ∧
      (∀ held : List UInt8, writeValue arena union (.union block) held.toArray =
        .ok () (held ++ block).toArray) ∧
      (∀ before after, readValue arena union (.between before (block ++ after)) =
        .ok (.union block) (.between (before ++ block) after)) ∧
      unpackUnion arena union name (.union block) =
        .ok (canonical arena member.type value) := by
  have isMember : unionMember record name = .ok member := by rw [unionMember, found]
  obtain ⟨part, partSized, partFits⟩ :=
    TypeArena.fixedSize?_of_union_member acyclic node sized (List.mem_of_find?_eq_some found)
  obtain ⟨bytes, appends, reads⟩ := transfers_of_conforms acyclic conforms
  have counted : bytes.length = part := (spans_readValue acyclic partSized).length_eq reads
  have fits : bytes.length ≤ size := counted ▸ partFits
  have encoded := encode_of_appends appends
  let padding : List UInt8 := List.replicate (size - bytes.length) 0
  have filled : (bytes ++ padding).length = size := by
    rw [List.length_append, List.length_replicate, Nat.add_sub_cancel' fits]
  have blockSized : arena.fixedSize? union = some (bytes ++ padding).length := by
    rw [filled, sized]
  refine ⟨bytes, bytes ++ padding, padding, encoded,
    packUnion_of_encode node sized isMember encoded fits, rfl,
    fun byte listed => List.eq_of_mem_replicate listed, filled, ?_,
    reads_union acyclic node blockSized, unpackUnion_of_reads node isMember reads⟩
  intro held
  rw [writeValue_union node blockSized]
  exact appends_raw _ held

/-- Shapes: a point, or a number that is wider than it. -/
def shapes : TypeArena where
  nodes := (Primitive.all.map TypeNode.primitive).toArray ++
    #[.struct ⟨"Point", 0, "", [⟨"x", Primitive.short.id, default⟩,
        ⟨"y", Primitive.byte.id, default⟩], {}, default⟩,
      .union ⟨"Shape", 0, "", [⟨"at", 14, default⟩, ⟨"raw", Primitive.int.id, default⟩], {},
        default⟩]

theorem shapes_acyclic : shapes.Acyclic :=
  TypeArena.acyclic_of_height (fun id => id - 13) (by decide)

/-- A point with its fields in another order. -/
def shuffledPoint : Value := .struct [("y", .int .i8 (-1)), ("x", .int .i16 513)]

theorem packUnion_keeps_value_point :
    shapes.Acyclic ∧ Conforms shapes 14 shuffledPoint ∧
      ∃ block : List UInt8, block.length = 4 ∧
        packUnion shapes 15 "at" shuffledPoint = .ok (.union block) ∧
        unpackUnion shapes 15 "at" (.union block) =
          .ok (.struct [("x", .int .i16 513), ("y", .int .i8 (-1))]) := by
  have conforms : Conforms shapes 14 shuffledPoint :=
    conforms_of_accepts ⟨#[], #[1, 2, 255], rfl⟩
  obtain ⟨bytes, block, padding, -, packed, -, -, counted, -, -, unpacked⟩ :=
    @packUnion_keeps_value shapes shapes_acyclic 15 _ rfl 4 (by decide) "at" _ rfl _ conforms
  exact ⟨shapes_acyclic, conforms, block, counted, packed, unpacked⟩

end Wire

end DriverIdl
