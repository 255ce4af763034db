import DriverIdl.Proofs.Program.Invariant
import DriverIdl.Proofs.Wire.Canonical
import DriverIdl.Proofs.Wire.Unions

/-!
# Values cost bytes

A small input does not make a large value, whatever lengths it tells.  Every value that is no struct
takes a byte of its own: a container takes its count, and each of its elements pays for itself.  A
struct takes no more than its members, and it has one.

Only `void` is free, and nothing that a file declares refers to it.
-/

namespace DriverIdl

namespace Value

mutual

/-- How many of the values in a value, itself included, are no structs. -/
def weight : Value → Nat
  | .seq elements => 1 + elementsWeight elements
  | .map entries => 1 + entriesWeight entries
  | .struct fields => fieldsWeight fields
  | _ => 1

/-- The weight of the elements of a sequence. -/
def elementsWeight : List Value → Nat
  | [] => 0
  | value :: rest => weight value + elementsWeight rest

/-- The weight of the entries of a map. -/
def entriesWeight : List (Value × Value) → Nat
  | [] => 0
  | (key, value) :: rest => weight key + weight value + entriesWeight rest

/-- The weight of the fields of a struct. -/
def fieldsWeight : List (String × Value) → Nat
  | [] => 0
  | (_, value) :: rest => weight value + fieldsWeight rest

end

end Value

theorem Primitive.fixedSize?_pos {primitive : Primitive} {size : Nat}
    (sized : primitive.fixedSize? = some size) : 0 < size := by
  cases primitive <;> cases sized <;> decide

namespace TypeArena

variable {options : Options} {mark : Nat} {arena before after : TypeArena}

/-- No type refers to `void`, and there is no other one. -/
structure VoidApart (arena : TypeArena) : Prop where
  parts : ∀ id, Primitive.void.id ∉ (arena.node id).parts
  only : ∀ id < arena.size, arena.node id = .primitive .void → id = Primitive.void.id

namespace VoidApart

theorem initial : VoidApart {} where
  parts id listed := by
    rcases Nat.lt_or_ge id Primitive.all.length with inside | outside
    · have noParts : ∀ index < Primitive.all.length,
          (({} : TypeArena).node index).parts = [] := by decide
      rw [noParts id inside] at listed
      cases listed
    · rw [node_of_size_le outside] at listed
      cases listed
  only := by decide

/-- What is added is apart if it is no primitive type, and what changes is if its parts are. -/
theorem extend (apart : before.VoidApart) (grown : before.Extends after)
    (parts : ∀ id < after.size, Primitive.void.id ∉ (after.node id).parts)
    (made : ∀ id, before.size ≤ id → id < after.size → after.node id ≠ .primitive .void) :
    after.VoidApart where
  parts id := by
    rcases Nat.lt_or_ge id after.size with inside | outside
    · exact parts id inside
    · rw [node_of_size_le outside]
      exact List.not_mem_nil
  only id below isVoid := by
    rcases Nat.lt_or_ge id before.size with inside | outside
    · apply apart.only id inside
      have kept := grown.outline_eq id inside
      rw [isVoid] at kept
      cases node : before.node id <;> simp_all [TypeNode.outline]
    · exact absurd isVoid (made id outside below)

theorem alloc (apart : arena.VoidApart) {node : TypeNode}
    (addable : arena.Addable options mark node) : (arena.alloc node).2.VoidApart := by
  apply apart.extend (.alloc arena node)
  · intro id below listed
    rw [size_alloc] at below
    rcases Nat.lt_succ_iff_lt_or_eq.mp below with inside | rfl
    · rw [node_alloc_of_lt inside] at listed
      exact apart.parts id listed
    · rw [node_alloc_size] at listed
      exact (addable.own _ listed).ne_void rfl
  · intro id outside below
    rw [size_alloc] at below
    obtain rfl : id = arena.size := Nat.le_antisymm (Nat.le_of_lt_succ below) outside
    rw [node_alloc_size]
    exact addable.made _

theorem update (apart : arena.VoidApart) (changed : TypeId) {change : TypeNode → TypeNode}
    (outline : ∀ node, (change node).outline = node.outline)
    (parts : Primitive.void.id ∉ (change (arena.node changed)).parts) :
    (arena.update changed change).VoidApart := by
  apply apart.extend (.update arena changed outline)
  · intro id below listed
    rw [size_update] at below
    by_cases same : id = changed
    · subst same
      rw [node_update_self below] at listed
      exact parts listed
    · rw [node_update_of_ne same] at listed
      exact apart.parts id listed
  · intro id outside below
    rw [size_update] at below
    exact absurd below (Nat.not_lt.mpr outside)

end VoidApart

theorem Change.voidApart (change : Change options mark before after) (apart : before.VoidApart) :
    after.VoidApart := by
  cases change with
  | add addable => exact apart.alloc addable
  | @fill id members fillable =>
      refine apart.update id (Parse.setMembers_outline members) fun listed => ?_
      rcases Parse.mem_parts_setMembers listed with ⟨member, isMember, isVoid⟩ | had
      · exact (fillable.own member isMember).ne_void isVoid
      · exact apart.parts id had
  | mark id =>
      refine apart.update id Parse.markSerializable_outline fun listed => ?_
      rw [Parse.markSerializable_parts] at listed
      exact apart.parts id listed

theorem Builds.voidApart (builds : Builds options mark before after) (apart : before.VoidApart) :
    after.VoidApart := by
  induction builds with
  | refl => exact apart
  | tail _ change ih => exact change.voidApart ih

/-- Nothing but `void` is free: no record is empty, and nothing refers to `void`. -/
structure Priced (arena : TypeArena) : Prop where
  members : ∀ id record, arena.record? id = some record → record.members ≠ []
  parts : ∀ id, ∀ part ∈ (arena.node id).parts, arena.node part ≠ .primitive .void

/-- Plain data takes a byte. -/
theorem Priced.fixedSizeWithin_pos (priced : arena.Priced) {depth size : Nat} {id : TypeId}
    (sized : arena.fixedSizeWithin depth id = some size) : 0 < size := by
  induction depth generalizing id size with
  | zero => cases sized
  | succ depth ih =>
      rw [fixedSizeWithin_eq_sizeRule, sizeRule] at sized
      cases node : arena.node id with
      | primitive primitive =>
          simp only [node] at sized
          exact Primitive.fixedSize?_pos sized
      | enum declared =>
          simp only [node] at sized
          exact Primitive.fixedSize?_pos sized
      | struct record =>
          simp only [node] at sized
          obtain ⟨member, rest, isFilled⟩ :=
            List.exists_cons_of_ne_nil (priced.members id record (record?_of_struct node))
          rw [isFilled, List.foldl_cons] at sized
          obtain ⟨started, -⟩ := isSome_of_foldl_sizes sized
          cases first : arena.fixedSizeWithin depth member.type with
          | none => simp [first] at started
          | some part =>
              simp only [first] at sized
              rw [Nat.zero_add] at sized
              exact Nat.lt_of_lt_of_le (ih first) (le_of_foldl_sums sized)
      | union record =>
          simp only [node] at sized
          obtain ⟨member, isMember⟩ :=
            List.exists_mem_of_ne_nil _ (priced.members id record (record?_of_union node))
          obtain ⟨part, partSized, fits⟩ := (le_of_foldl_largest sized).2 member isMember
          exact Nat.lt_of_lt_of_le (ih partSized) fits
      | _ => simp [node] at sized

end TypeArena

namespace Wire

open Parcel

variable {arena : TypeArena}

/-- The bytes pay for a value: there is one, and as many as the value has weight.  `void` is free. -/
def Pays (arena : TypeArena) (type : TypeId) (value : Value) (bytes : List UInt8) : Prop :=
  arena.node type ≠ .primitive .void → 0 < bytes.length ∧ value.weight ≤ bytes.length

section Loops

variable {α β : Type}

/-- Parts that each hold what their answer weighs together hold what all answers weigh. -/
theorem Joined.sum_le {relation : α → β → List UInt8 → Prop} {weigh : β → Nat} {items : List α}
    {results : List β} {bytes : List UInt8} (joined : Joined relation items results bytes)
    (each : ∀ item ∈ items, ∀ result part, relation item result part →
      weigh result ≤ part.length) : (results.map weigh).sum ≤ bytes.length := by
  induction joined with
  | nil => exact Nat.le_refl 0
  | cons here _ ih =>
      rw [List.forall_mem_cons] at each
      rw [List.map_cons, List.sum_cons, List.length_append]
      exact Nat.add_le_add (each.1 _ _ here) (ih each.2)

/-- A count and as many answers take a byte more than the answers weigh. -/
theorem takes_weighed {read : Read β} {weigh : β → Nat}
    (each : Takes read fun result bytes => weigh result ≤ bytes.length)
    (convert : List β → Value) {goal : Value → List UInt8 → Prop}
    (implies : ∀ results bytes, 4 + (results.map weigh).sum ≤ bytes.length →
      goal (convert results) bytes) :
    Takes (do
      let count ← Parcel.Read.length.adaptExcept Error.parcel
      let results ← readMany read count []
      return convert results) goal := by
  apply Takes.bind (spans_length.adapt Error.parcel)
  intro count bytes counted
  apply (takes_readMany each count).map
  intro results rest joined
  apply implies
  rw [List.length_append, counted]
  exact Nat.add_le_add_left (joined.sum_le fun _ _ _ _ weighed => weighed) 4

end Loops

section Weights

theorem elementsWeight_eq (elements : List Value) :
    Value.elementsWeight elements = (elements.map Value.weight).sum := by
  induction elements with
  | nil => rfl
  | cons value rest ih => rw [Value.elementsWeight, ih, List.map_cons, List.sum_cons]

theorem entriesWeight_eq (entries : List (Value × Value)) :
    Value.entriesWeight entries =
      (entries.map fun entry => entry.1.weight + entry.2.weight).sum := by
  induction entries with
  | nil => rfl
  | cons entry rest ih => rw [Value.entriesWeight, ih, List.map_cons, List.sum_cons]

theorem fieldsWeight_eq (fields : List (String × Value)) :
    Value.fieldsWeight fields = (fields.map fun field => field.2.weight).sum := by
  induction fields with
  | nil => rfl
  | cons field rest ih => rw [Value.fieldsWeight, ih, List.map_cons, List.sum_cons]

end Weights

section Rules

variable {type : TypeId} {size : Nat}

/-- An answer that holds no other values is paid by any byte. -/
theorem pays_of_leaf {value : Value} {bytes : List UInt8} (leaf : value.weight = 1)
    (some : 0 < bytes.length) : Pays arena type value bytes :=
  fun _ => ⟨some, leaf ▸ some⟩

/-- What is made of a fixed number of bytes, and holds no other values, is paid. -/
theorem pays_of_spans {failure α : Type} {read : Parcel.Read failure α} (spans : Spans read size)
    (pos : 0 < size) {convert : α → Value} (leaf : ∀ answer, (convert answer).weight = 1) :
    Takes (read >>= fun answer => pure (convert answer)) (Pays arena type) :=
  Takes.map spans fun answer _ counted => pays_of_leaf (leaf answer) (counted ▸ pos)

theorem pays_readPrimitive {primitive : Primitive} (node : arena.node type = .primitive primitive) :
    Takes (readPrimitive primitive) (Pays arena type) := by
  have integer (shape : IntShape) :
      Takes (readPrimitive.integer shape) (Pays arena type) :=
    pays_of_spans (spans_number shape.bytes) (by cases shape <;> decide) fun _ => rfl
  cases primitive with
  | boolean => exact pays_of_spans spans_bool (by decide) fun _ => rfl
  | float | fileDescriptor => exact pays_of_spans (spans_number 4) (by decide) fun _ => rfl
  | double => exact pays_of_spans (spans_number 8) (by decide) fun _ => rfl
  | string =>
      apply takes_four_string.map
      intro text bytes enough
      exact pays_of_leaf rfl (by omega)
  | void => exact .pure fun notVoid => absurd node notVoid
  | byte | short | int | long | uchar | ushort | uint | ulong => exact integer _

theorem pays_readEnum {base : Primitive} : Takes (readEnum base) (Pays arena type) := by
  rw [readEnum]
  cases base.shape? with
  | none => exact .throw _
  | some shape =>
      have spans := (spans_number shape.bytes).adapt Error.parcel
      exact pays_of_spans spans (by cases shape <;> decide) fun _ => rfl

theorem pays_readQueue : Takes readQueue (Pays arena type) := by
  have spans : Spans readQueue (4 + (4 + (4 + (1 + 0)))) :=
    (spans_number 4).bind fun _ => (spans_number 4).bind fun _ => (spans_number 4).bind fun _ =>
      spans_bool.bind fun _ => .pure _
  apply (spans.and (@takes_queue arena type type)).mono
  rintro _ bytes ⟨counted, descriptor, rfl, -⟩
  exact pays_of_leaf rfl (by omega)

/-- Members that are each paid pay for their struct, if there is one. -/
theorem pays_readMembers (priced : arena.Priced) {read : TypeId → Read Value}
    (inside : ∀ inner, Takes (read inner) (Pays arena inner)) {record : RecordType}
    (node : arena.node type = .struct record) :
    Takes (do
      let fields ← readEach (fun (member : Member) => do
        return (member.name, ← read member.type)) record.members []
      return Value.struct fields) (Pays arena type) := by
  have solid : ∀ member ∈ record.members, arena.node member.type ≠ .primitive .void := by
    intro member listed
    apply priced.parts type
    rw [node]
    exact List.mem_map_of_mem listed
  have field (member : Member) : Takes (do
      return (member.name, ← read member.type)) fun field bytes =>
        Pays arena member.type field.2 bytes :=
    (inside member.type).map fun _ _ pays => pays
  apply (takes_readEach field record.members []).map
  rintro _ bytes ⟨fields, rfl, joined⟩ -
  have weighed := joined.sum_le fun member listed field part pays => (pays (solid member listed)).2
  refine ⟨?_, by rwa [Value.weight, fieldsWeight_eq]⟩
  have filled := priced.members type record (TypeArena.record?_of_struct node)
  generalize record.members = members at solid joined filled
  cases joined with
  | nil => exact absurd rfl filled
  | cons first later =>
      rw [List.length_append]
      exact Nat.add_pos_left (first (solid _ List.mem_cons_self)).1 _

/-- The rule of a type pays for its answers if the readers of the types inside do. -/
theorem pays_readRule (priced : arena.Priced) {read : TypeId → Read Value}
    (inside : ∀ inner, Takes (read inner) (Pays arena inner)) (type : TypeId) :
    Takes (readRule arena read type) (Pays arena type) := by
  have weighed {element : TypeId} (isPart : element ∈ (arena.node type).parts) :
      Takes (read element) fun value bytes => value.weight ≤ bytes.length :=
    (inside element).mono fun _ _ pays => (pays (priced.parts type element isPart)).2
  have sequence {element : TypeId} (isPart : element ∈ (arena.node type).parts)
      (holds : arena.element? type = some element) :
      Takes (readRule arena read type) (Pays arena type) := by
    rw [readRule_seq holds]
    apply takes_weighed (weighed isPart)
    intro elements bytes enough _
    rw [Value.weight, elementsWeight_eq]
    exact ⟨by omega, by omega⟩
  cases node : arena.node type with
  | primitive primitive =>
      simp only [readRule, node]
      exact (pays_readPrimitive node).adapt _
  | enum declared =>
      simp only [readRule, node]
      exact pays_readEnum
  | struct record =>
      simp only [readRule, node]
      exact pays_readMembers priced inside node
  | union record =>
      simp only [readRule, node]
      cases sized : arena.fixedSize? type with
      | none => 
          have refused : Takes (plainSize arena type : Read Nat) fun _ _ => False := by
            simp only [plainSize, sized]
            exact .throw _
          exact refused.bind fun _ _ impossible => impossible.elim
      | some size =>
          simp only [plainSize, sized, pure_bind]
          exact pays_of_spans ((spans_raw size).adapt Error.parcel)
            (priced.fixedSizeWithin_pos sized) fun _ => rfl
  | array element | list element =>
      have holds : arena.element? type = some element := by rw [TypeArena.element?, node]
      exact sequence (by simp [node, TypeNode.parts]) holds
  | map key value =>
      simp only [readRule, node]
      have entry : Takes (do
          let key ← read key
          return (key, ← read value)) fun entry bytes =>
            entry.1.weight + entry.2.weight ≤ bytes.length := by
        apply Takes.bind (weighed (by simp [node, TypeNode.parts]))
        intro keyValue first paidKey
        apply (weighed (by simp [node, TypeNode.parts])).map
        intro mapped second paidValue
        rw [List.length_append]
        exact Nat.add_le_add paidKey paidValue
      apply takes_weighed entry
      intro entries bytes enough _
      rw [Value.weight, entriesWeight_eq]
      exact ⟨by omega, by omega⟩
  | interface declared =>
      simp only [readRule, node]
      exact pays_of_spans ((spans_number 8).adapt Error.parcel) (by decide) fun _ => rfl
  | sequenceable declared =>
      simp only [readRule, node]
      apply (takes_four_bytes.adapt Error.parcel).map
      intro payload bytes enough
      exact pays_of_leaf rfl (by omega)
  | queue element =>
      simp only [readRule, node]
      exact pays_readQueue.adapt Error.parcel

theorem pays_readWithin (priced : arena.Priced) (depth : Nat) (type : TypeId) :
    Takes (readWithin arena depth type) (Pays arena type) := by
  induction depth generalizing type with
  | zero => exact .throw _
  | succ depth ih => exact pays_readRule priced ih type

theorem pays_readValue (priced : arena.Priced) (type : TypeId) :
    Takes (readValue arena type) (Pays arena type) :=
  fun before rest => pays_readWithin priced _ type before rest

end Rules

end Wire

namespace Program

variable {program : Program}

theorem Reachable.voidApart (reachable : program.Reachable) : program.types.VoidApart := by
  induction reachable with
  | empty => exact .initial
  | @parse program options diagnostics path source reachable ih =>
      have wellFormed := reachable.wellFormed
      obtain ⟨read, advanced, rejects | accepts⟩ :=
        parseSource_cases wellFormed options diagnostics path source
      · obtain ⟨size, nodes⟩ := rejects.types advanced wellFormed.types
        have marks := fun id below => (nodes id below).imp_right And.right
        apply ih.extend (types_extends_of_marks size marks)
        · intro id below listed
          apply ih.parts id
          rcases marks id (size ▸ below) with same | marked
          · rwa [same] at listed
          · rwa [marked, Parse.markSerializable_parts] at listed
        · intro id outside below
          exact absurd (size ▸ below) (Nat.not_lt.mpr outside)
      · rw [accepts.types_eq]
        exact accepts.built.builds.voidApart ih

/-- Only `void` is free in the types of a program. -/
theorem Reachable.priced (reachable : program.Reachable) : program.types.Priced where
  members id record found := (reachable.coherent.proper id record found).1
  parts id part listed isVoid := by
    have inside := reachable.wellFormed.types.parts_lt id part listed
    obtain rfl := reachable.voidApart.only part inside isVoid
    exact reachable.voidApart.parts id listed

/-- Reading does not amplify.  No type of a program refers to `void`, and a value that is read for any
other type has taken a byte, and at least as many bytes as there are values in it that are no structs,
whatever stands in the parcel. -/
theorem readValue_pays_for_values (reachable : program.Reachable) :
    (∀ id, Primitive.void.id ∉ (program.types.node id).parts) ∧
    ∀ type < program.types.size, type ≠ Primitive.void.id →
      ∀ (reader : Parcel.Reader) (value : Value) (after : Parcel.Reader),
        Wire.readValue program.types type reader = .ok value after →
          after.data = reader.data ∧ reader.index < after.index ∧
            value.weight ≤ after.index - reader.index := by
  refine ⟨reachable.voidApart.parts, ?_⟩
  intro type inside other reader value after run
  obtain ⟨sameData, -, pays⟩ := (Wire.pays_readValue reachable.priced type).at run
  obtain ⟨some, enough⟩ := pays fun isVoid => other (reachable.voidApart.only type inside isVoid)
  have bound : after.index ≤ reader.data.size := sameData ▸ after.index_le
  rw [Parcel.Reader.taken, Array.length_toList, Array.size_extract, Nat.min_eq_left bound]
    at some enough
  exact ⟨sameData, Nat.lt_of_sub_pos some, enough⟩

/-- A file whose struct holds a list of bytes. -/
def listOutcome : ParseOutcome :=
  ({} : Program).parseSource {} [] ⟨"a/v1_0/Types.idl"⟩
    "package a.v1_0; struct S \x7b List<byte> b; \x7d;"

/-- The types of that file. -/
def lists : TypeArena where
  nodes := (Primitive.all.map TypeNode.primitive).toArray ++
    #[.struct ⟨"S", 2, "Types", [⟨"b", 15, ⟨1, 39⟩⟩], {}, ⟨1, 24⟩⟩, .list Primitive.byte.id]

theorem types_listOutcome : listOutcome.program.types = lists :=
  congrArg TypeArena.mk (by decide +kernel)

theorem readValue_pays_for_values_list :
    listOutcome.program.Reachable ∧ 14 < lists.size ∧ 14 ≠ Primitive.void.id ∧
      ∃ value after,
        Wire.readValue lists 14 (.between [] [2, 0, 0, 0, 7, 8, 9]) = .ok value after ∧
          value.weight = 3 ∧ 3 ≤ after.index := by
  have reachable : listOutcome.program.Reachable := .parse _ _ _ _ .empty
  have run : Wire.readValue lists 14 (.between [] [2, 0, 0, 0, 7, 8, 9]) =
      .ok (.struct [("b", .seq [.int .i8 7, .int .i8 8])])
        (.between [2, 0, 0, 0, 7, 8] [9]) := rfl
  have pays := (readValue_pays_for_values reachable).2 14
  rw [types_listOutcome] at pays
  obtain ⟨-, -, enough⟩ := pays (by decide) (by decide) _ _ _ run
  exact ⟨reachable, by decide, by decide, _, _, run, rfl, enough⟩

end Program

end DriverIdl
