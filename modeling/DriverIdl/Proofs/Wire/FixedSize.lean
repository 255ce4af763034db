import DriverIdl.Proofs.Parcel.Consumption
import DriverIdl.Proofs.Wire.RoundTrip

/-!
# The size of plain data

A type with a fixed size takes that many bytes on the wire, for every value of it: a struct the sum of
its members, a union the largest of them.  Both the size and reading follow rules from the types inside,
and at each kind of type the rules agree.
-/

namespace DriverIdl

namespace TypeArena

variable {arena : TypeArena}

/-- Sizes that are added up only make a sum larger. -/
theorem le_of_foldl_sums {sizes : TypeId → Option Nat} {members : List Member} {start total : Nat}
    (found : members.foldl (fun total member =>
      match total, sizes member.type with
      | some sum, some size => some (sum + size)
      | _, _ => none) (some start) = some total) : start ≤ total := by
  induction members generalizing start with
  | nil => exact Nat.le_of_eq (Option.some.inj found)
  | cons member rest ih =>
      rw [List.foldl_cons] at found
      obtain ⟨startSized, -⟩ := isSome_of_foldl_sizes found
      cases sized : sizes member.type with
      | none => simp [sized] at startSized
      | some part =>
          simp only [sized] at found
          exact Nat.le_trans (Nat.le_add_right start part) (ih found)

/-- The size of a type follows by the rule from the sizes of the types in it. -/
theorem fixedSize?_eq_sizeRule (acyclic : arena.Acyclic) (id : TypeId) :
    arena.fixedSize? id = arena.sizeRule arena.fixedSize? id := by
  rw [fixedSize?, fixedSizeWithin_eq_sizeRule]
  apply sizeRule_congr rfl
  intro inner contains
  have drops := nesting_lt_of_contains contains (acyclic.not_reachesCycle id)
  have bound := arena.nesting_le_size id
  exact (fixedSizeWithin_succ (acyclic.not_reachesCycle inner) (by omega)).symm

end TypeArena

namespace Primitive

/-- An integer of plain data has the width of its shape. -/
theorem fixedSize?_of_shape? {primitive : Primitive} {shape : IntShape}
    (shaped : primitive.shape? = some shape) : primitive.fixedSize? = some shape.bytes := by
  cases primitive with
  | byte | short | int | long | uchar | ushort | uint | ulong =>
      cases shaped
      rfl
  | _ => cases shaped

end Primitive

namespace Wire

open Parcel

section Rules

variable {arena : TypeArena} {size : Nat}

theorem spans_readPrimitive {primitive : Primitive} (sized : primitive.fixedSize? = some size) :
    Spans (readPrimitive primitive) size := by
  have integer {shape : IntShape} (shaped : primitive.shape? = some shape) :
      Spans (readPrimitive.integer shape) size := by
    rw [Primitive.fixedSize?_of_shape? shaped] at sized
    cases sized
    exact (spans_number _).map _
  cases primitive with
  | boolean =>
      cases sized
      exact spans_bool.map _
  | float | double =>
      cases sized
      exact (spans_number _).map _
  | string | fileDescriptor | void => cases sized
  | byte | short | int | long | uchar | ushort | uint | ulong => exact integer rfl

theorem spans_readEnum {base : Primitive} (sized : base.fixedSize? = some size) :
    Spans (readEnum base) size := by
  rw [readEnum]
  cases shaped : base.shape? with
  | none => exact Takes.throw _
  | some shape =>
      rw [Primitive.fixedSize?_of_shape? shaped] at sized
      cases sized
      exact ((spans_number _).adapt Error.parcel).map _

/-- Members take the sum of their sizes. -/
theorem spans_readEach {α : Type} {read : Member → Read α} {sizes : TypeId → Option Nat}
    {members : List Member} {start : Nat} (known : List α)
    (each : ∀ member ∈ members, ∀ part, sizes member.type = some part → Spans (read member) part)
    (total : members.foldl (fun total member =>
      match total, sizes member.type with
      | some sum, some size => some (sum + size)
      | _, _ => none) (some start) = some (start + size)) :
    Spans (readEach read members known) size := by
  induction members generalizing start size known with
  | nil =>
      obtain rfl : size = 0 := by simpa using total
      exact .pure _
  | cons member rest ih =>
      rw [List.foldl_cons] at total
      obtain ⟨startSized, -⟩ := TypeArena.isSome_of_foldl_sizes total
      cases sized : sizes member.type with
      | none => simp [sized] at startSized
      | some part =>
          simp only [sized] at total
          have further : start + part ≤ start + size := TypeArena.le_of_foldl_sums total
          obtain ⟨others, rfl⟩ : ∃ others, size = part + others :=
            Nat.exists_eq_add_of_le (Nat.le_of_add_le_add_left further)
          rw [← Nat.add_assoc] at total
          apply (each member List.mem_cons_self part sized).bind
          intro value
          exact ih _ (fun later listed => each later (List.mem_cons_of_mem member listed)) total

theorem spans_readValue (acyclic : arena.Acyclic) {type : TypeId}
    (sized : arena.fixedSize? type = some size) : Spans (readValue arena type) size := by
  -- A member nests less deep than its struct.
  induction nests : arena.nesting type using Nat.strong_induction_on generalizing type size with
  | h nests ih =>
    subst nests
    rw [readValue_eq_readRule acyclic, readRule]
    rw [TypeArena.fixedSize?_eq_sizeRule acyclic, TypeArena.sizeRule] at sized
    cases node : arena.node type with
    | primitive primitive =>
        simp only [node] at sized ⊢
        exact (spans_readPrimitive sized).adapt Error.parcel
    | enum declared =>
        simp only [node] at sized ⊢
        exact spans_readEnum sized
    | struct record =>
        simp only [node] at sized ⊢
        rw [← Nat.zero_add size] at sized
        refine (spans_readEach [] ?_ sized).map _
        intro member listed part sizedPart
        have contains := TypeArena.Contains.of_member (TypeArena.record?_of_struct node) listed
        have drops := TypeArena.nesting_lt_of_contains contains (acyclic.not_reachesCycle type)
        exact (ih _ drops sizedPart rfl).map _
    | union record =>
        have whole : arena.fixedSize? type = some size := by
          rw [TypeArena.fixedSize?_eq_sizeRule acyclic, TypeArena.sizeRule, node]
          simpa only [node] using sized
        simp only [plainSize, whole, pure_bind]
        exact ((spans_raw size).adapt Error.parcel).map _
    | _ => simp only [node, reduceCtorEq] at sized

end Rules

/-- A type with a fixed size has that size on the wire: whatever value is written by its rule adds
exactly that many bytes, and reading that succeeds takes exactly that many. -/
theorem fixedSize?_is_wire_size {arena : TypeArena} (acyclic : arena.Acyclic) {type : TypeId}
    {size : Nat} (sized : arena.fixedSize? type = some size) :
    (∀ (value : Value) (held : List UInt8) (after : Array UInt8),
      writeValue arena type value held.toArray = .ok () after →
        ∃ bytes, bytes.length = size ∧ after = (held ++ bytes).toArray) ∧
    ∀ (reader : Reader) (value : Value) (after : Reader),
      readValue arena type reader = .ok value after →
        after.data = reader.data ∧ after.index = reader.index + size := by
  have spans := spans_readValue acyclic sized
  refine ⟨?_, ?_⟩
  · intro value held after run
    obtain ⟨bytes, appends, reads⟩ :=
      transfers_of_conforms acyclic (conforms_of_accepts ⟨held.toArray, after, run⟩)
    rw [appends held] at run
    cases run
    exact ⟨bytes, spans.length_eq reads, rfl⟩
  · intro reader value after run
    obtain ⟨sameData, ahead, taken⟩ := spans.at run
    have inside : after.index ≤ reader.data.size := sameData ▸ after.index_le
    rw [Reader.taken, Array.length_toList, Array.size_extract, Nat.min_eq_left inside] at taken
    exact ⟨sameData, by omega⟩

/-- A sample of a sensor: a flag, a kind, and a union that has the width of its second member. -/
def samples : TypeArena where
  nodes := (Primitive.all.map TypeNode.primitive).toArray ++
    #[.enum ⟨"Kind", 0, "", .short, [], {}, default⟩,
      .union ⟨"Level", 0, "", [⟨"raw", Primitive.byte.id, default⟩,
        ⟨"exact", Primitive.int.id, default⟩], {}, default⟩,
      .struct ⟨"Sample", 0, "", [⟨"valid", Primitive.boolean.id, default⟩, ⟨"kind", 14, default⟩,
        ⟨"level", 15, default⟩], {}, default⟩]

/-- A sample with its fields in another order. -/
def sample : Value :=
  .struct [("level", .union [1, 2, 3, 4]), ("kind", .enum (-2)), ("valid", .bool true)]

theorem samples_acyclic : samples.Acyclic :=
  TypeArena.acyclic_of_height (fun id => id - 14) (by decide)

theorem fixedSize?_is_wire_size_sample :
    samples.Acyclic ∧ samples.fixedSize? 16 = some 7 ∧
      (∃ bytes, bytes.length = 7 ∧
        writeValue samples 16 sample #[9] = .ok () ([9] ++ bytes).toArray) ∧
      ∃ value after, readValue samples 16 (.between [9] [1, 254, 255, 1, 2, 3, 4, 8]) =
        .ok value after ∧ after.index = 1 + 7 := by
  have sized : samples.fixedSize? 16 = some 7 := by decide
  obtain ⟨writes, reads⟩ := fixedSize?_is_wire_size samples_acyclic sized
  refine ⟨samples_acyclic, sized, ?_, ?_⟩
  · obtain ⟨bytes, counted, same⟩ := writes sample [9] #[9, 1, 254, 255, 1, 2, 3, 4] rfl
    exact ⟨bytes, counted, congrArg (EStateM.Result.ok ()) same⟩
  · have run : readValue samples 16 (.between [9] [1, 254, 255, 1, 2, 3, 4, 8]) =
        .ok _ (.between [9, 1, 254, 255, 1, 2, 3, 4] [8]) := rfl
    exact ⟨_, _, run, (reads _ _ _ run).2⟩

end Wire

end DriverIdl
