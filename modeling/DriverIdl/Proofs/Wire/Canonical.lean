import DriverIdl.Proofs.Model.Arena
import DriverIdl.Proofs.Parcel.Consumption
import DriverIdl.Proofs.Wire.Call
import Mathlib.Logic.Relation
import Mathlib.Tactic.IntervalCases

/-!
# Accepted bytes are canonical

A value has one form on the wire: whatever bytes are read as a value, writing the value gives these
bytes again.  The one thing that writing checks and reading does not is the element size in the
descriptor of a queue.  So requests without queues that are decoded are encoded to the same bytes,
and replies to the bytes that were used of them.
-/

namespace DriverIdl

namespace TypeArena

/-- No struct has two members of one name. -/
def DistinctMembers (arena : TypeArena) : Prop :=
  ∀ type record, arena.node type = .struct record → (record.members.map Member.name).Nodup

theorem DistinctMembers.of_records {arena : TypeArena}
    (each : ∀ type < arena.size, ∀ record ∈ arena.record? type,
      (record.members.map Member.name).Nodup) : arena.DistinctMembers := by
  intro type record node
  have found := record?_of_struct node
  exact each type (lt_size_of_record? found) record found

/-- The types of the values that stand one level down in a value of a type. -/
def carried (arena : TypeArena) (type : TypeId) : List TypeId :=
  match arena.node type with
  | .struct record => record.members.map Member.type
  | .array element | .list element => [element]
  | .map key value => [key, value]
  | _ => []

/-- A queue type stands, at any depth, in a type. -/
def CarriesQueue (arena : TypeArena) (type : TypeId) : Prop :=
  ∃ inner element, arena.node inner = .queue element ∧
    Relation.ReflTransGen (fun outer inner => inner ∈ arena.carried outer) type inner

theorem CarriesQueue.of_carried {arena : TypeArena} {outer inner : TypeId}
    (carries : inner ∈ arena.carried outer) (queue : arena.CarriesQueue inner) :
    arena.CarriesQueue outer := by
  obtain ⟨last, element, node, reached⟩ := queue
  exact ⟨last, element, node, .head carries reached⟩

end TypeArena

namespace IntShape

theorem holds_toInt (shape : IntShape) (pattern : BitVec shape.bits) :
    shape.holds (shape.toInt pattern) := by
  rw [holds, Bool.and_eq_true_iff, decide_eq_true_iff, decide_eq_true_iff]
  cases shape with
  | i8 | i16 | i32 | i64 =>
      have low := BitVec.le_two_mul_toInt (x := pattern)
      have high := BitVec.two_mul_toInt_lt (x := pattern)
      simp only [least, greatest, isSigned, bits, bytes, toInt, ↓reduceIte, Nat.pow_eq] at *
      omega
  | u8 | u16 | u32 | u64 =>
      have small := pattern.isLt
      simp only [least, greatest, isSigned, bits, bytes, toInt, Bool.false_eq_true, ↓reduceIte,
        Nat.pow_eq] at *
      omega

theorem ofInt_toInt (shape : IntShape) (pattern : BitVec shape.bits) :
    BitVec.ofInt shape.bits (shape.toInt pattern) = pattern := by
  rw [toInt]
  split
  · exact BitVec.ofInt_toInt
  · rw [BitVec.ofInt_natCast, BitVec.ofNat_toNat, BitVec.setWidth_eq]

end IntShape

namespace Wire

open Parcel

/-- A value of a type holds, at any depth, the descriptor of a queue whose element size is not the
size of the declared element type. -/
inductive HoldsMissizedQueue (arena : TypeArena) : TypeId → Value → Prop
  | here {type element : TypeId} {descriptor : QueueMeta} (node : arena.node type = .queue element)
    (differs : arena.fixedSize? element ≠ some descriptor.elementSize.toNat) :
    HoldsMissizedQueue arena type (.queue descriptor)
  | element {type element : TypeId} {elements : List Value} {value : Value}
    (holds : arena.element? type = some element) (listed : value ∈ elements)
    (inside : HoldsMissizedQueue arena element value) :
    HoldsMissizedQueue arena type (.seq elements)
  | key {type key value : TypeId} {entries : List (Value × Value)} {entry : Value × Value}
    (node : arena.node type = .map key value) (listed : entry ∈ entries)
    (inside : HoldsMissizedQueue arena key entry.1) : HoldsMissizedQueue arena type (.map entries)
  | value {type key value : TypeId} {entries : List (Value × Value)} {entry : Value × Value}
    (node : arena.node type = .map key value) (listed : entry ∈ entries)
    (inside : HoldsMissizedQueue arena value entry.2) : HoldsMissizedQueue arena type (.map entries)
  | field {type : TypeId} {record : RecordType} {fields : List (String × Value)} {member : Member}
    {value : Value} (node : arena.node type = .struct record) (declared : member ∈ record.members)
    (found : Value.lookup member.name fields = some value)
    (inside : HoldsMissizedQueue arena member.type value) :
    HoldsMissizedQueue arena type (.struct fields)

section Queues

variable {arena : TypeArena} {type : TypeId} {value : Value}

theorem HoldsMissizedQueue.not_conforms (holds : HoldsMissizedQueue arena type value) :
    ¬Conforms arena type value := by
  intro conforms
  induction holds with
  | here node differs =>
      cases conforms with
      | queue nodeAgain size =>
          obtain rfl := TypeNode.queue.inj (node.symm.trans nodeAgain)
          exact differs size
  | element holds listed _ ih =>
      cases conforms with
      | sequence holdsAgain _ conform =>
          obtain rfl := Option.some.inj (holds.symm.trans holdsAgain)
          exact ih (conform _ listed)
  | key node listed _ ih =>
      cases conforms with
      | map nodeAgain _ keys _ =>
          obtain ⟨rfl, rfl⟩ := TypeNode.map.inj (node.symm.trans nodeAgain)
          exact ih (keys _ listed)
  | value node listed _ ih =>
      cases conforms with
      | map nodeAgain _ _ values =>
          obtain ⟨rfl, rfl⟩ := TypeNode.map.inj (node.symm.trans nodeAgain)
          exact ih (values _ listed)
  | field node declared found _ ih =>
      cases conforms with
      | struct nodeAgain _ conform =>
          obtain rfl := TypeNode.struct.inj (node.symm.trans nodeAgain)
          exact ih (conform _ declared _ found)

theorem HoldsMissizedQueue.carriesQueue (holds : HoldsMissizedQueue arena type value) :
    arena.CarriesQueue type := by
  induction holds with
  | here node _ => exact ⟨_, _, node, .refl⟩
  | element holds _ _ ih =>
      apply ih.of_carried
      rcases node_of_element? holds with node | node
      · simp [TypeArena.carried, node]
      · simp [TypeArena.carried, node]
  | key node _ _ ih => exact ih.of_carried (by simp [TypeArena.carried, node])
  | value node _ _ ih => exact ih.of_carried (by simp [TypeArena.carried, node])
  | field node declared _ _ ih =>
      apply ih.of_carried
      simpa [TypeArena.carried, node] using ⟨_, declared, rfl⟩

end Queues

section Loops

variable {α β : Type}

/-- Bytes that are made of one part for each item and the answer read for it. -/
inductive Joined (relation : α → β → List UInt8 → Prop) :
    List α → List β → List UInt8 → Prop
  | nil : Joined relation [] [] []
  | cons {item : α} {result : β} {items : List α} {results : List β} {bytes rest : List UInt8}
    (here : relation item result bytes) (later : Joined relation items results rest) :
    Joined relation (item :: items) (result :: results) (bytes ++ rest)

theorem Joined.length_eq {relation : α → β → List UInt8 → Prop} {items : List α}
    {results : List β} {bytes : List UInt8} (joined : Joined relation items results bytes) :
    items.length = results.length := by
  induction joined with
  | nil => rfl
  | cons _ _ ih => rw [List.length_cons, List.length_cons, ih]

/-- Parts that are each written for their pair are together written for all pairs. -/
theorem Joined.appends {relation : α → β → List UInt8 → Prop} {write : α × β → Write Unit}
    {items : List α} {results : List β} {bytes : List UInt8}
    (joined : Joined relation items results bytes)
    (each : ∀ pair ∈ items.zip results, ∀ part, relation pair.1 pair.2 part →
      Appends (write pair) part) : Appends ((items.zip results).forM write) bytes := by
  induction joined with
  | nil => exact .pure
  | cons here _ ih =>
      rw [List.zip_cons_cons, List.forall_mem_cons] at each
      exact (each.1 _ here).bind (ih each.2)

theorem takes_readEach {read : α → Read β} {relation : α → β → List UInt8 → Prop}
    (each : ∀ item, Takes (read item) (relation item)) (items : List α) (known : List β) :
    Takes (readEach read items known) fun results bytes =>
      ∃ fresh, results = known.reverse ++ fresh ∧ Joined relation items fresh bytes := by
  induction items generalizing known with
  | nil => exact .pure ⟨[], by rw [List.append_nil], .nil⟩
  | cons item rest ih =>
      apply (each item).bind
      intro value bytes related
      apply (ih (value :: known)).mono
      rintro _ more ⟨fresh, rfl, joined⟩
      exact ⟨value :: fresh, by simp, .cons related joined⟩

theorem takes_readMany {read : Read β} {relation : β → List UInt8 → Prop}
    (each : Takes read relation) (count : Nat) :
    Takes (readMany read count []) fun results bytes =>
      Joined (fun _ => relation) (List.replicate count ()) results bytes := by
  have loop := takes_readEach (fun _ => each) (List.replicate count ()) []
  have same := readMany_eq_readEach read (List.replicate count ()) []
  rw [List.length_replicate, List.map_id] at same
  rw [same]
  apply loop.mono
  rintro _ bytes ⟨fresh, rfl, joined⟩
  exact joined

/-- Answers that were read a number of times are written one after the other. -/
theorem Joined.appends_results {relation : β → List UInt8 → Prop} {write : β → Write Unit}
    {count : Nat} {results : List β} {bytes : List UInt8}
    (joined : Joined (fun _ => relation) (List.replicate count ()) results bytes)
    (each : ∀ result ∈ results, ∀ part, relation result part → Appends (write result) part) :
    Appends (results.forM write) bytes := by
  have whole : Appends (((List.replicate count ()).zip results).forM fun pair => write pair.2)
      bytes := by
    apply joined.appends
    intro pair listed part related
    exact each pair.2 (List.of_mem_zip listed).2 part related
  have projected : (((List.replicate count ()).zip results).map Prod.snd).forM write =
      ((List.replicate count ()).zip results).forM fun pair => write pair.2 := List.forM_map
  rw [List.map_snd_zip (Nat.le_of_eq joined.length_eq.symm)] at projected
  rwa [projected]

/-- A count and as many answers take what is written for the answers and their number. -/
theorem takes_counted {read : Read β} {relation : β → List UInt8 → Prop} {write : β → Write Unit}
    {goal : Value → List UInt8 → Prop} {convert : List β → Value} (each : Takes read relation)
    (implies : ∀ results bytes,
      ((∀ result ∈ results, ∀ part, relation result part → Appends (write result) part) →
        Appends (do
          writeCount results.length
          results.forM write) bytes) → goal (convert results) bytes) :
    Takes (do
      let count ← Parcel.Read.length.adaptExcept Error.parcel
      let results ← readMany read count []
      return convert results) goal := by
  apply (takes_length.adapt Error.parcel).bind
  rintro count bytes ⟨-, counted⟩
  apply (takes_readMany each count).map
  intro results rest joined
  apply implies
  intro written
  have number : count = results.length := by
    simpa using joined.length_eq
  rw [← number]
  exact (counted.adapt Error.parcel).bind (joined.appends_results written)

end Loops

section Rules

variable {arena : TypeArena} {type : TypeId}

/-- The bytes are the ones that are written for the value, unless it holds a missized queue. -/
def Restores (arena : TypeArena) (type : TypeId) (value : Value) (bytes : List UInt8) : Prop :=
  ¬HoldsMissizedQueue arena type value → Appends (writeValue arena type value) bytes

theorem takes_primitive (primitive : Primitive) :
    Takes (readPrimitive primitive) fun value bytes =>
      ∃ write, writePrimitive? primitive value = some write ∧ Appends write bytes := by
  have integer {shape : IntShape} (shaped : primitive.shape? = some shape) :
      Takes (readPrimitive.integer shape) fun value bytes =>
        ∃ write, writePrimitive? primitive value = some write ∧ Appends write bytes := by
    apply (takes_number shape.bytes).map
    intro number bytes stores
    exact ⟨_, writePrimitive?_int shaped _, stores.appends_pattern⟩
  cases primitive with
  | boolean => exact takes_bool.map fun truth bytes appends => ⟨_, rfl, appends⟩
  | float => exact (takes_number 4).map fun number bytes stores => ⟨_, rfl, stores.appends_pattern⟩
  | double => exact (takes_number 8).map fun number bytes stores => ⟨_, rfl, stores.appends_pattern⟩
  | string => exact takes_string.map fun text bytes appends => ⟨_, rfl, appends.adapt _⟩
  | fileDescriptor =>
      exact (takes_number 4).map fun number bytes stores => ⟨_, rfl, stores.appends_pattern⟩
  | void => exact .pure ⟨_, rfl, .pure⟩
  | byte | short | int | long | uchar | ushort | uint | ulong => exact integer rfl

theorem takes_enum (base : Primitive) :
    Takes (readEnum base) fun value bytes =>
      ∃ number, value = .enum number ∧ Appends (writeEnum base number) bytes := by
  rw [readEnum]
  cases shaped : base.shape? with
  | none => exact .throw _
  | some shape =>
      apply ((takes_number shape.bytes).adapt Error.parcel).map
      intro number bytes stores
      refine ⟨_, rfl, ?_⟩
      simp only [writeEnum, shaped, IntShape.holds_toInt, IntShape.ofInt_toInt, ↓reduceIte]
      exact stores.appends_pattern

theorem takes_union :
    Takes (do
      let size ← plainSize arena type
      let block ← (Parcel.Read.raw size).adaptExcept Error.parcel
      return Value.union block) fun value bytes =>
        ∃ block, value = .union block ∧ Appends (writeUnion arena type block) bytes := by
  cases size : arena.fixedSize? type with
  | none =>
      have refused : Takes (plainSize arena type : Read Nat) fun _ _ => False := by
        simp only [plainSize, size]
        exact .throw _
      exact refused.bind fun _ _ impossible => impossible.elim
  | some length =>
      simp only [plainSize, size, pure_bind]
      apply ((takes_raw length).adapt Error.parcel).map
      rintro block _ ⟨rfl, rfl⟩
      refine ⟨block, rfl, ?_⟩
      simp only [writeUnion, plainSize, size, pure_bind, ne_eq, not_true_eq_false, ↓reduceIte]
      exact appends_raw block

theorem takes_queue {element : TypeId} :
    Takes readQueue fun value bytes => ∃ descriptor, value = .queue descriptor ∧
      (arena.fixedSize? element = some descriptor.elementSize.toNat →
        Appends (writeQueue arena type element descriptor) bytes) := by
  apply (takes_number 4).bind
  intro fd fdBytes storesFd
  apply (takes_number 4).bind
  intro elementSize sizeBytes storesSize
  apply (takes_number 4).bind
  intro elementCount countBytes storesCount
  apply takes_bool.map
  intro synchronized flagBytes appendsFlag
  refine ⟨_, rfl, ?_⟩
  intro size
  simp only [writeQueue, plainSize, size, pure_bind, ne_eq, not_true_eq_false, ↓reduceIte]
  exact storesFd.appends_pattern.bind (storesSize.appends_pattern.bind
    (storesCount.appends_pattern.bind appendsFlag))

theorem lookup_of_mem {name : String} {value : Value} {fields : List (String × Value)}
    (distinct : (fields.map Prod.fst).Nodup) (listed : (name, value) ∈ fields) :
    Value.lookup name fields = some value := by
  induction fields with
  | nil => cases listed
  | cons field rest ih =>
      obtain ⟨fresh, distinctRest⟩ := List.nodup_cons.mp distinct
      rw [Value.lookup]
      rcases List.mem_cons.mp listed with rfl | listed
      · simp
      · have differs : field.1 ≠ name := by
          rintro rfl
          exact fresh (List.mem_map.mpr ⟨_, listed, rfl⟩)
        simp [differs, ih distinctRest listed]

/-- A field as it is read for a member. -/
def ReadsField (arena : TypeArena) (member : Member) (field : String × Value)
    (bytes : List UInt8) : Prop :=
  field.1 = member.name ∧ Restores arena member.type field.2 bytes

theorem Joined.names_eq {members : List Member} {fields : List (String × Value)}
    {bytes : List UInt8} (joined : Joined (ReadsField arena) members fields bytes) :
    fields.map Prod.fst = members.map Member.name := by
  induction joined with
  | nil => rfl
  | cons here _ ih => rw [List.map_cons, List.map_cons, here.1, ih]

/-- Fields that were read for the members of a struct are written back member by member. -/
theorem Joined.restores_struct {record : RecordType} {fields : List (String × Value)}
    {bytes : List UInt8} (node : arena.node type = .struct record)
    (distinct : (record.members.map Member.name).Nodup)
    (joined : Joined (ReadsField arena) record.members fields bytes) :
    Restores arena type (.struct fields) bytes := by
  intro sized
  have names : (fields.map Prod.fst).Nodup := by rwa [joined.names_eq]
  have whole : Appends ((record.members.zip fields).forM fun pair =>
      writeField arena record fields pair.1) bytes := by
    apply joined.appends
    rintro ⟨member, name, value⟩ listed part ⟨same, restores⟩
    obtain rfl : name = member.name := same
    obtain ⟨declared, held⟩ := List.of_mem_zip listed
    have found := lookup_of_mem names held
    simp only [writeField, found]
    exact restores fun inside => sized (.field node declared found inside)
  have projected :
      ((record.members.zip fields).map Prod.fst).forM (writeField arena record fields) =
        (record.members.zip fields).forM fun pair => writeField arena record fields pair.1 :=
    List.forM_map
  rw [List.map_fst_zip (Nat.le_of_eq joined.length_eq)] at projected
  simp only [writeValue, node, writeMembers_eq_forM, projected]
  exact whole

/-- The rule of a type takes the bytes that are written for its answers if the readers of the types
inside do. -/
theorem takes_readRule (distinct : arena.DistinctMembers) {read : TypeId → Read Value}
    (inside : ∀ inner, Takes (read inner) (Restores arena inner)) (type : TypeId) :
    Takes (readRule arena read type) (Restores arena type) := by
  have sequence {element : TypeId} (holds : arena.element? type = some element) :
      Takes (readRule arena read type) (Restores arena type) := by
    rw [readRule_seq holds]
    apply takes_counted (inside element)
    intro elements bytes written sized
    rw [writeValue_seq holds]
    apply written
    intro value listed part restores
    exact restores fun missized => sized (.element holds listed missized)
  cases node : arena.node type with
  | primitive primitive =>
      simp only [readRule, node]
      apply ((takes_primitive primitive).adapt _).mono
      rintro value bytes ⟨write, written, appends⟩ -
      have simple : writeSimple arena type value = write := by
        simp only [writeSimple, node, written]
      cases value with
      | seq | map | struct => cases primitive <;> cases written
      | _ =>
          simp only [writeValue, simple]
          exact appends
  | enum declared =>
      simp only [readRule, node]
      apply (takes_enum declared.base).mono
      rintro _ bytes ⟨number, rfl, appends⟩ -
      simp only [writeValue, writeSimple, node]
      exact appends
  | struct record =>
      simp only [readRule, node]
      have member (member : Member) : Takes (do
          return (member.name, ← read member.type)) (ReadsField arena member) :=
        (inside member.type).map fun _ _ restores => ⟨rfl, restores⟩
      apply (takes_readEach member record.members []).map
      rintro _ bytes ⟨fields, rfl, joined⟩
      exact joined.restores_struct node (distinct type record node)
  | union record =>
      simp only [readRule, node]
      apply takes_union.mono
      rintro _ bytes ⟨block, rfl, appends⟩ -
      simp only [writeValue, writeSimple, node]
      exact appends
  | array element | list element => exact sequence (by rw [TypeArena.element?, node])
  | map key value =>
      simp only [readRule, node]
      have entry : Takes (do
          let key ← read key
          return (key, ← read value)) fun entry bytes =>
            ∃ first second, bytes = first ++ second ∧ Restores arena key entry.1 first ∧
              Restores arena value entry.2 second := by
        apply (inside key).bind
        intro keyValue first restoresKey
        apply (inside value).map
        intro mapped second restoresValue
        exact ⟨first, second, rfl, restoresKey, restoresValue⟩
      apply takes_counted entry
      intro entries bytes written sized
      simp only [writeValue, node, writeEntries_eq_forM]
      apply written
      rintro entry listed _ ⟨first, second, rfl, restoresKey, restoresValue⟩
      exact (restoresKey fun missized => sized (.key node listed missized)).bind
        (restoresValue fun missized => sized (.value node listed missized))
  | interface declared =>
      simp only [readRule, node]
      apply ((takes_number 8).adapt Error.parcel).map
      rintro handle bytes stores -
      simp only [writeValue, writeSimple, node]
      exact stores.appends_pattern
  | sequenceable declared =>
      simp only [readRule, node]
      apply (takes_bytes.adapt Error.parcel).map
      rintro payload bytes appends -
      simp only [writeValue, writeSimple, node]
      exact appends.adapt Error.parcel
  | queue element =>
      simp only [readRule, node]
      apply (takes_queue.adapt Error.parcel).mono
      rintro _ bytes ⟨descriptor, rfl, appends⟩ sized
      simp only [writeValue, writeSimple, node]
      apply appends
      by_contra differs
      exact sized (.here node differs)

theorem takes_readWithin (distinct : arena.DistinctMembers) (depth : Nat) (type : TypeId) :
    Takes (readWithin arena depth type) (Restores arena type) := by
  induction depth generalizing type with
  | zero => exact .throw _
  | succ depth ih => exact takes_readRule distinct ih type

theorem takes_readValue (distinct : arena.DistinctMembers) (type : TypeId) :
    Takes (readValue arena type) (Restores arena type) :=
  fun before rest => takes_readWithin distinct _ type before rest

end Rules

section Encoding

variable {arena : TypeArena} {type : TypeId} {value : Value}

theorem encode_of_appends {bytes : List UInt8}
    (appends : Appends (writeValue arena type value) bytes) :
    encode arena type value = .ok bytes :=
  written_of_appends appends

theorem encode_of_holdsMissizedQueue (holds : HoldsMissizedQueue arena type value) :
    ∃ failure, encode arena type value = .error failure := by
  cases encoded : encode arena type value with
  | ok bytes => exact absurd (conforms_of_accepts (accepts_of_written encoded)) holds.not_conforms
  | error failure => exact ⟨failure, rfl⟩

end Encoding

section Calls

variable {arena : TypeArena} {method : Method}

/-- No parameter of a method has a type with a queue in it. -/
def WithoutQueues (arena : TypeArena) (method : Method) : Prop :=
  ∀ parameter ∈ method.parameters, ¬arena.CarriesQueue parameter.type

/-- Arguments take the bytes that are written for them. -/
theorem takes_readArguments (distinct : arena.DistinctMembers) {parameters : List Parameter}
    (free : ∀ parameter ∈ parameters, ¬arena.CarriesQueue parameter.type) :
    Takes (readArguments arena parameters) fun values bytes =>
      parameters.length = values.length ∧
        Appends (writeArguments arena (parameters.zip values)) bytes := by
  have each (parameter : Parameter) := takes_readValue distinct parameter.type
  apply (takes_readEach each parameters []).mono
  rintro _ bytes ⟨values, rfl, joined⟩
  refine ⟨joined.length_eq, ?_⟩
  rw [writeArguments_eq_forM]
  apply joined.appends
  intro pair listed part restores
  exact restores fun missized => free _ (List.of_mem_zip listed).1 missized.carriesQueue

/-- Capacities take the bytes that are written for them. -/
theorem takes_readCapacities :
    Takes (readCapacities arena method) fun capacities bytes =>
      Appends (writeCapacities arena method capacities) bytes := by
  have capacity : Takes (do
      return UInt32.ofNat (← (Parcel.Read.number 4).adaptExcept Error.parcel) : Read UInt32)
      fun capacity bytes =>
        Appends (Parcel.Write.number 4 capacity.toNat : Write Unit) bytes := by
    apply ((takes_number 4).adapt Error.parcel).map
    intro number bytes stores
    exact stores.appends_pattern
  unfold readCapacities writeCapacities
  by_cases flag : arena.needsCapacityFlag method
  · simp only [flag, ↓reduceIte]
    apply (takes_bool.adapt Error.parcel).bind
    intro announced bytes appendsFlag
    cases announced with
    | false => exact .pure (appendsFlag.bind .pure)
    | true =>
        apply (takes_readMany capacity _).map
        intro given rest joined
        have counted : (arena.capacityParameters method).length = given.length := by
          simpa using joined.length_eq
        refine appendsFlag.bind ?_
        simp only [liftExcept_checkCount counted, pure_bind]
        exact joined.appends_results fun _ _ _ appends => appends
  · simp only [flag]
    exact .pure .pure

theorem readFrom_eq_ok {α : Type} {read : Read α} {bytes : List UInt8} {value : α}
    (done : readFrom bytes read = .ok value) :
    ∃ after, read (Reader.between [] bytes) = .ok value after := by
  rw [readFrom] at done
  split at done
  · rename_i result after run
    cases done
    exact ⟨after, run⟩
  · cases done

/-- A request ends where its arguments end. -/
theorem finish_eq_ok {before suffix : List UInt8} {request result : Request} {after : Reader}
    (run : (do
      let reader ← get
      if !reader.isExhausted then
        throw (.marshal (.trailingBytes reader.remaining method.name))
      return request : Read Request) (Reader.between before suffix) = .ok result after) :
    suffix = [] ∧ result = request := by
  obtain ⟨reader, middle, reached, run⟩ := bind_eq_ok.mp run
  cases reached
  split at run
  · cases run
  · rename_i exhausted
    cases run
    exact ⟨by simpa [Reader.isExhausted] using exhausted, rfl⟩

theorem encodeRequest_of_decodeRequest (distinct : arena.DistinctMembers)
    (free : WithoutQueues arena method) {bytes : List UInt8} {request : Request}
    (decoded : decodeRequest arena method bytes = .ok request) :
    encodeRequest arena method request = .ok bytes := by
  obtain ⟨after, run⟩ := readFrom_eq_ok decoded
  obtain ⟨capacities, middle, runCapacities, run⟩ := bind_eq_ok.mp run
  obtain ⟨arguments, reached, runArguments, run⟩ := bind_eq_ok.mp run
  have freeIn (parameter : Parameter) (listed : parameter ∈ method.inParameters) :=
    free parameter (List.mem_of_mem_filter listed)
  obtain ⟨flags, rest, rfl, rfl, appendsFlags⟩ := takes_readCapacities _ _ _ _ runCapacities
  obtain ⟨stored, suffix, rfl, rfl, counted, appends⟩ :=
    takes_readArguments distinct freeIn _ _ _ _ runArguments
  obtain ⟨rfl, rfl⟩ := finish_eq_ok run
  rw [List.append_nil]
  apply written_of_appends
  simp only [liftExcept_checkCount counted, pure_bind]
  exact appendsFlags.bind appends

theorem conformToAll_of_accepts {parameters : List Parameter} {values : List Value}
    (counted : parameters.length = values.length)
    (accepts : Accepts (writeArguments arena (parameters.zip values))) :
    ConformToAll arena parameters values := by
  rw [writeArguments_eq_forM] at accepts
  refine List.forall₂_iff_zip.mpr ⟨counted, ?_⟩
  intro parameter value listed
  exact conforms_of_accepts (accepts.of_forM _ listed)

/-- The results that a reply holds are encoded to the bytes that were used of it, whatever
capacities they are measured against, unless one of them does not fit. -/
theorem encodeReply_of_decodeReply (distinct : arena.DistinctMembers)
    (free : WithoutQueues arena method) {bytes : List UInt8} {results : List Value}
    (decoded : decodeReply arena method bytes = .ok results) :
    ∃ reply, reply <+: bytes ∧ ∀ request,
      (FitAnnounced arena method request.capacities results →
        encodeReply arena method request results = .ok reply) ∧
      (¬FitAnnounced arena method request.capacities results →
        ∃ failure, encodeReply arena method request results = .error failure) := by
  obtain ⟨after, run⟩ := readFrom_eq_ok decoded
  have freeOut (parameter : Parameter) (listed : parameter ∈ method.outParameters) :=
    free parameter (List.mem_of_mem_filter listed)
  obtain ⟨reply, suffix, rfl, -, counted, appends⟩ :=
    takes_readArguments distinct freeOut _ _ _ _ run
  have conform : ConformToAll arena method.outParameters results :=
    conformToAll_of_accepts counted ⟨_, _, appends []⟩
  obtain ⟨-, each⟩ := List.forall₂_iff_zip.mp conform
  refine ⟨reply, List.prefix_append reply suffix, fun request => ⟨?_, ?_⟩⟩
  · intro fit
    rw [encodeReply_eq_written conform,
      writeResults_eq_writeArguments (fun _ listed => each listed) (fitAnnounced_iff.mp fit)]
    exact written_of_appends appends
  · intro unfit
    cases encoded : encodeReply arena method request results with
    | ok reply => exact absurd (fitAnnounced_of_encodeReply conform encoded) unfit
    | error failure => exact ⟨failure, rfl⟩

end Calls

/-- Bytes that are read as a value, at any place of a parcel, are the bytes that are written for the
value; writing fails exactly if the value holds a queue descriptor with an element size that is not
the size of the declared elements.  So a request without queues that is decoded is encoded to the
same bytes.  The results of a reply without queues are encoded to the bytes it starts with, unless
one exceeds a capacity that the request announced.  The types may nest in any way. -/
theorem accepted_bytes_are_canonical {arena : TypeArena} (distinct : arena.DistinctMembers) :
    (∀ type reader value after, readValue arena type reader = .ok value after →
      after.data = reader.data ∧ reader.index ≤ after.index ∧
      (¬HoldsMissizedQueue arena type value →
        encode arena type value = .ok (reader.taken after)) ∧
      (HoldsMissizedQueue arena type value →
        ∃ failure, encode arena type value = .error failure)) ∧
    ∀ method, WithoutQueues arena method →
      (∀ bytes request, decodeRequest arena method bytes = .ok request →
        encodeRequest arena method request = .ok bytes) ∧
      ∀ bytes results, decodeReply arena method bytes = .ok results →
        ∃ reply, reply <+: bytes ∧ ∀ request,
          (FitAnnounced arena method request.capacities results →
            encodeReply arena method request results = .ok reply) ∧
          (¬FitAnnounced arena method request.capacities results →
            ∃ failure, encodeReply arena method request results = .error failure) := by
  refine ⟨?_, fun method free => ⟨?_, ?_⟩⟩
  · intro type reader value after run
    obtain ⟨sameData, moved, restores⟩ := (takes_readValue distinct type).at run
    exact ⟨sameData, moved, fun sized => encode_of_appends (restores sized),
      encode_of_holdsMissizedQueue⟩
  · intro bytes request decoded
    exact encodeRequest_of_decodeRequest distinct free decoded
  · intro bytes results decoded
    exact encodeReply_of_decodeReply distinct free decoded

/-- A feed of numbers: a struct that holds a queue. -/
def feeds : TypeArena where
  nodes := (Primitive.all.map TypeNode.primitive).toArray ++
    #[.struct ⟨"Feed", 0, "", [⟨"id", Primitive.int.id, default⟩, ⟨"items", 15, default⟩], {},
      default⟩, .queue Primitive.int.id]

/-- A feed whose queue declares elements of some size. -/
def feed (elementSize : BitVec 32) : Value :=
  .struct [("id", .int .i32 2), ("items", .queue ⟨5, elementSize, 8, true⟩)]

theorem feeds_distinctMembers : feeds.DistinctMembers :=
  .of_records (by decide)

theorem folders_distinctMembers : folders.DistinctMembers :=
  .of_records (by decide)

theorem listing_withoutQueues : WithoutQueues folders listing := by
  rintro parameter - ⟨type, element, node, -⟩
  by_cases inside : type < 16
  · interval_cases type <;> cases node
  · rw [TypeArena.node_of_size_le (Nat.le_of_not_lt inside)] at node
    cases node

theorem accepted_bytes_are_canonical_feed :
    feeds.DistinctMembers ∧ folders.DistinctMembers ∧ WithoutQueues folders listing ∧
      encode feeds 14 (feed 4) = .ok [2, 0, 0, 0, 5, 0, 0, 0, 4, 0, 0, 0, 8, 0, 0, 0, 1] ∧
      (∃ failure, encode feeds 14 (feed 6) = .error failure) ∧
      encodeRequest folders listing ⟨[nestedFolder, .int .i32 3], some [4, 1]⟩ =
        .ok [1, 4, 0, 0, 0, 1, 0, 0, 0, 2, 0, 0, 0, 1, 0, 0, 0, 255, 255, 255, 255, 0, 0, 0, 0,
          3, 0, 0, 0] := by
  obtain ⟨values, -⟩ := accepted_bytes_are_canonical feeds_distinctMembers
  obtain ⟨-, calls⟩ := accepted_bytes_are_canonical folders_distinctMembers
  have missized : HoldsMissizedQueue feeds 14 (feed 6) :=
    .field rfl (List.mem_cons_of_mem _ List.mem_cons_self) rfl (.here rfl (by decide))
  have sized : ¬HoldsMissizedQueue feeds 14 (feed 4) := fun holds =>
    holds.not_conforms (conforms_of_accepts ⟨#[], _, rfl⟩)
  -- The feeds stand behind one byte and in front of another.
  have run (size : UInt8) (known : size = 4 ∨ size = 6) :
      readValue feeds 14
        (Reader.between [9] [2, 0, 0, 0, 5, 0, 0, 0, size, 0, 0, 0, 8, 0, 0, 0, 1, 77]) =
        .ok (feed size.toUInt32.toBitVec)
          (Reader.between [9, 2, 0, 0, 0, 5, 0, 0, 0, size, 0, 0, 0, 8, 0, 0, 0, 1] [77]) := by
    rcases known with rfl | rfl
    · rfl
    · rfl
  refine ⟨feeds_distinctMembers, folders_distinctMembers, listing_withoutQueues, ?_, ?_, ?_⟩
  · exact (values 14 _ _ _ (run 4 (.inl rfl))).2.2.1 sized
  · exact (values 14 _ _ _ (run 6 (.inr rfl))).2.2.2 missized
  · exact (calls listing listing_withoutQueues).1 _ _ rfl

end Wire

end DriverIdl
