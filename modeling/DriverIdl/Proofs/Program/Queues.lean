import DriverIdl.Proofs.Program.Invariant
import DriverIdl.Proofs.Wire.RoundTrip

/-!
# Elements of queues

A queue is of plain data, and its element is checked where the queue is read.  A struct is known
before its members are, and is an empty one until then: a queue of the struct in its own body passes
the check, but the struct that comes of it is no plain data.

This is the only way past the check.  Types that were there before an open struct do not refer to it,
and types that its body adds stand in its members, so no other element changes when the members are
filled in.
-/

namespace DriverIdl

open Parse Relation

namespace TypeArena

variable {options : Options} {mark : Nat} {arena before after : TypeArena} {id queue element : TypeId}

section Sizes

/-- The members of a struct or union with a size have one. -/
theorem isSome_of_member {depth size : Nat} {record : RecordType}
    (found : arena.fixedSizeWithin (depth + 1) id = some size)
    (isRecord : arena.record? id = some record) :
    ∀ member ∈ record.members, (arena.fixedSizeWithin depth member.type).isSome := by
  rw [record?_eq] at isRecord
  rw [fixedSizeWithin] at found
  cases node : arena.node id with
  | struct declared | union declared =>
      obtain rfl : declared = record := by simpa [node, TypeNode.record?] using isRecord
      rw [node] at found
      exact (isSome_of_foldl_sizes found).2
  | _ => simp [node, TypeNode.record?] at isRecord

/-- A size that is found at some depth is found at the next. -/
theorem fixedSizeWithin_succ_of_isSome {depth : Nat}
    (sized : (arena.fixedSizeWithin depth id).isSome) :
    arena.fixedSizeWithin (depth + 1) id = arena.fixedSizeWithin depth id := by
  induction depth generalizing id with
  | zero => simp [fixedSizeWithin] at sized
  | succ depth ih =>
      obtain ⟨size, found⟩ := Option.isSome_iff_exists.mp sized
      rw [fixedSizeWithin_eq_sizeRule, fixedSizeWithin_eq_sizeRule]
      apply sizeRule_congr rfl
      rintro inner ⟨record, isRecord, member, listed, rfl⟩
      exact ih (isSome_of_member found isRecord member listed)

theorem isSome_fixedSizeWithin_of_le {depth more : Nat} (enough : depth ≤ more)
    (sized : (arena.fixedSizeWithin depth id).isSome) :
    (arena.fixedSizeWithin more id).isSome := by
  induction more, enough using Nat.le_induction with
  | base => exact sized
  | succ more _ ih => rwa [fixedSizeWithin_succ_of_isSome ih]

/-- A container is no plain data. -/
theorem fixedSizeWithin_of_holdsElement {outer inner : TypeId} (holds : arena.HoldsElement outer inner)
    (depth : Nat) : arena.fixedSizeWithin depth outer = none := by
  cases depth with
  | zero => rfl
  | succ depth =>
      rw [fixedSizeWithin]
      unfold HoldsElement at holds
      cases node : arena.node outer <;> simp_all [TypeNode.elements]

/-- Neither is a type that a queue stands in. -/
theorem fixedSizeWithin_of_path {outer : TypeId} (isQueue : arena.node queue = .queue element)
    (path : ReflTransGen arena.HoldsElement outer queue) (depth : Nat) :
    arena.fixedSizeWithin depth outer = none := by
  rcases ReflTransGen.cases_head path with rfl | ⟨held, holds, -⟩
  · have holds : arena.HoldsElement outer element := by
      rw [HoldsElement, isQueue]
      exact List.mem_singleton_self element
    exact fixedSizeWithin_of_holdsElement holds depth
  · exact fixedSizeWithin_of_holdsElement holds depth

end Sizes

/-- The queue stands in a member of its element, alone or in containers. -/
def StandsInElement (arena : TypeArena) (queue element : TypeId) : Prop :=
  ∃ record, arena.record? element = some record ∧
    ∃ member ∈ record.members, ReflTransGen arena.HoldsElement member.type queue

/-- Queues are of plain data, but for those that stand in their own element. -/
def QueuesPlain (arena : TypeArena) : Prop :=
  ∀ queue element, arena.node queue = .queue element →
    (arena.fixedSize? element).isSome ∨ arena.StandsInElement queue element

theorem queuesPlain_initial : QueuesPlain {} := by
  intro queue element isQueue
  rcases Nat.lt_or_ge queue Primitive.all.length with inside | outside
  · have noElements : ∀ index < Primitive.all.length,
        (({} : TypeArena).node index).elements = [] := by decide
    have none := noElements queue inside
    simp [isQueue, TypeNode.elements] at none
  · rw [node_of_size_le outside] at isQueue
    cases isQueue

/-- A queue that is there already was a queue of the same element. -/
theorem Extends.queue_eq (grown : before.Extends after) (inside : queue < before.size)
    (isQueue : after.node queue = .queue element) : before.node queue = .queue element := by
  have same := grown.outline_eq queue inside
  rw [isQueue] at same
  cases node : before.node queue <;> simp_all [TypeNode.outline]

namespace KeepsRecords

theorem isSome_fixedSize? (keeps : before.KeepsRecords after) (sound : before.Sound)
    (inside : id < before.size) (sized : (before.fixedSize? id).isSome) :
    (after.fixedSize? id).isSome := by
  apply isSome_fixedSizeWithin_of_le (Nat.succ_le_succ keeps.size_le)
  rw [keeps.fixedSizeWithin_eq sound _ inside]
  exact sized

theorem standsInElement (keeps : before.KeepsRecords after)
    (stands : before.StandsInElement queue element) : after.StandsInElement queue element := by
  obtain ⟨record, found, member, listed, path⟩ := stands
  refine ⟨record, ?_, member, listed, keeps.toExtends.holdsElement_path path⟩
  rw [keeps.record_eq element (lt_size_of_record? found), found]

/-- Old queues stay what they are, so only new ones are to be looked at. -/
theorem queuesPlain (keeps : before.KeepsRecords after) (sound : before.Sound)
    (plain : before.QueuesPlain)
    (new : ∀ queue element, before.size ≤ queue → after.node queue = .queue element →
      (after.fixedSize? element).isSome) : after.QueuesPlain := by
  intro queue element isQueue
  rcases Nat.lt_or_ge queue before.size with inside | outside
  · have wasQueue := keeps.toExtends.queue_eq inside isQueue
    have elementInside : element < before.size :=
      sound.parts_lt queue element (by simp [wasQueue, TypeNode.parts])
    refine (plain queue element wasQueue).imp ?_ keeps.standsInElement
    exact keeps.isSome_fixedSize? sound elementInside
  · exact .inl (new queue element outside isQueue)

theorem alloc (arena : TypeArena) (node : TypeNode) :
    arena.KeepsRecords (arena.alloc node).2 where
  toExtends := .alloc arena node
  record_eq _ inside := record?_alloc_of_ne (Nat.ne_of_lt inside)

theorem marked (arena : TypeArena) (id : TypeId) :
    arena.KeepsRecords (arena.update id markSerializable) where
  toExtends := .update arena id markSerializable_outline
  record_eq other _ := record?_marked arena (some id) other

end KeepsRecords

/-- A new queue has been checked. -/
theorem Addable.queuesPlain {node : TypeNode} (addable : arena.Addable options mark node)
    (sound : arena.Sound) (plain : arena.QueuesPlain) : (arena.alloc node).2.QueuesPlain := by
  have keeps := KeepsRecords.alloc arena node
  apply keeps.queuesPlain sound plain
  intro queue element outside isQueue
  rcases Nat.eq_or_lt_of_le outside with rfl | behind
  · rw [node_alloc_size] at isQueue
    have own := addable.own element (by simp [isQueue, TypeNode.parts])
    exact keeps.isSome_fixedSize? sound own.inside (addable.plain element isQueue)
  · rw [node_of_size_le (by rw [size_alloc]; omega)] at isQueue
    cases isQueue

namespace Fillable

variable {members : List Member} (fillable : arena.Fillable options mark id members)

include fillable

/-- No type contains the one that gets its members, so all others keep their sizes. -/
theorem fixedSizeWithin_eq (depth : Nat) {other : TypeId} (different : other ≠ id) :
    (arena.update id (setMembers members)).fixedSizeWithin depth other =
      arena.fixedSizeWithin depth other := by
  induction depth generalizing other with
  | zero => rfl
  | succ depth ih =>
      apply sizeRule_congr (node_update_of_ne different _)
      intro inner contains
      apply ih
      rintro rfl
      exact fillable.uncontained other contains

theorem record?_update : ∃ record,
    (arena.update id (setMembers members)).record? id = some record ∧ record.members = members := by
  obtain ⟨record, found, -⟩ := fillable.unfilled
  have isSome : ((arena.update id (setMembers members)).record? id).isSome := by
    rw [record?_eq, node_update_self (lt_size_of_record? found)]
    rw [record?_eq] at found
    cases node : arena.node id <;> simp_all [TypeNode.record?, setMembers]
  obtain ⟨filled, isFilled⟩ := Option.isSome_iff_exists.mp isSome
  refine ⟨filled, isFilled, ?_⟩
  rw [record?_eq, node_update_self (lt_size_of_record? found)] at isFilled
  exact members_of_setMembers isFilled

theorem queuesPlain (plain : arena.QueuesPlain) :
    (arena.update id (setMembers members)).QueuesPlain := by
  have grown : arena.Extends (arena.update id (setMembers members)) :=
    .update arena id (setMembers_outline members)
  intro queue element isQueue
  have inside : queue < arena.size := by
    by_contra outside
    rw [node_of_size_le (by rw [size_update]; exact Nat.le_of_not_lt outside)] at isQueue
    cases isQueue
  have wasQueue := grown.queue_eq inside isQueue
  by_cases isOpen : element = id
  · -- A queue of the open type was read in its body, so it stands in a member.
    subst isOpen
    obtain ⟨record, found, filled⟩ := fillable.record?_update
    obtain ⟨member, listed, path⟩ := fillable.held queue
      (by simp [HoldsElement, wasQueue, TypeNode.elements])
    exact .inr ⟨record, found, member, filled ▸ listed, grown.holdsElement_path path⟩
  · refine (plain queue element wasQueue).imp ?_ ?_
    · intro sized
      rwa [fixedSize?, size_update, fillable.fixedSizeWithin_eq _ isOpen]
    · rintro ⟨record, found, member, listed, path⟩
      refine ⟨record, ?_, member, listed, grown.holdsElement_path path⟩
      rw [record?_update_of_ne isOpen, found]

end Fillable

theorem Change.queuesPlain (change : Change options mark before after) (sound : before.Sound)
    (plain : before.QueuesPlain) : after.QueuesPlain := by
  cases change with
  | add addable => exact addable.queuesPlain sound plain
  | fill fillable => exact fillable.queuesPlain plain
  | mark id =>
      apply (KeepsRecords.marked before id).queuesPlain sound plain
      intro queue element outside isQueue
      rw [node_of_size_le (by rwa [size_update])] at isQueue
      cases isQueue

theorem Builds.queuesPlain (builds : Builds options mark before after) (sound : before.Sound)
    (plain : before.QueuesPlain) : after.QueuesPlain := by
  induction builds with
  | refl => exact plain
  | tail earlier change ih => exact change.queuesPlain (Builds.sound earlier sound) ih

/-- A type with a queue in one of its members is no plain data. -/
theorem StandsInElement.fixedSize?_eq_none (stands : arena.StandsInElement queue element)
    (isQueue : arena.node queue = .queue element) : arena.fixedSize? element = none := by
  obtain ⟨record, found, member, listed, path⟩ := stands
  by_contra sized
  obtain ⟨size, isSize⟩ := Option.ne_none_iff_exists'.mp sized
  have memberSized := isSome_of_member isSize found member listed
  rw [fixedSizeWithin_of_path isQueue path] at memberSized
  cases memberSized

/-- The members of a union are plain data, so a queue stands in no union. -/
theorem StandsInElement.exists_struct (stands : arena.StandsInElement queue element)
    (isQueue : arena.node queue = .queue element) (unions : arena.UnionsPlain) :
    ∃ record, arena.node element = .struct record ∧
      ∃ member ∈ record.members, ReflTransGen arena.HoldsElement member.type queue := by
  obtain ⟨record, found, member, listed, path⟩ := stands
  rw [record?_eq] at found
  cases node : arena.node element with
  | struct declared =>
      obtain rfl : declared = record := by simpa [node, TypeNode.record?] using found
      exact ⟨declared, rfl, member, listed, path⟩
  | union declared =>
      obtain rfl : declared = record := by simpa [node, TypeNode.record?] using found
      have sized := unions element declared node member listed
      rw [fixedSize?, fixedSizeWithin_of_path isQueue path] at sized
      cases sized
  | _ => simp [node, TypeNode.record?] at found

end TypeArena

namespace Program

variable {program : Program}

theorem Reachable.queuesPlain (reachable : program.Reachable) : program.types.QueuesPlain := by
  induction reachable with
  | empty => exact TypeArena.queuesPlain_initial
  | @parse program options diagnostics path source reachable ih =>
      have wellFormed := reachable.wellFormed
      obtain ⟨read, advanced, rejects | accepts⟩ :=
        parseSource_cases wellFormed options diagnostics path source
      · obtain ⟨size, nodes⟩ := rejects.types advanced wellFormed.types
        have marks := fun id below => (nodes id below).imp_right And.right
        have keeps := keepsRecords_of_nodes (types_extends_of_marks size marks) marks
        apply keeps.queuesPlain wellFormed.types ih
        intro queue element outside isQueue
        rw [TypeArena.node_of_size_le (by rw [size]; exact outside)] at isQueue
        cases isQueue
      · rw [accepts.types_eq]
        exact accepts.built.builds.queuesPlain wellFormed.types ih

end Program

namespace Wire

/-- The descriptor of a queue is written exactly if it tells the size of the element. -/
theorem writeValue_queue_iff {arena : TypeArena} {queue element : TypeId}
    (isQueue : arena.node queue = .queue element) (descriptor : QueueMeta) :
    (∀ held, ∃ after, writeValue arena queue (.queue descriptor) held = .ok () after) ↔
      arena.fixedSize? element = some descriptor.elementSize.toNat := by
  have opened : writeValue arena queue (.queue descriptor) =
      writeQueue arena queue element descriptor := by
    simp [writeValue, writeSimple, isQueue]
  rw [opened]
  constructor
  · intro writes
    obtain ⟨after, run⟩ := writes #[]
    cases conforms_of_queue isQueue ⟨#[], after, run⟩ with
    | queue node size =>
        rw [isQueue] at node
        cases node
        exact size
  · intro size held
    obtain ⟨bytes, appends, -⟩ := @transfers_queue arena queue element descriptor size
    exact ⟨_, appends held.toList⟩

end Wire

namespace Program

/-- The element of a queue is plain data, unless it is a struct with the queue in one of its members:
such a struct was still empty when the queue was read.  The descriptor of a queue can be written
exactly if it tells the size of the element, so that of a queue in its own element never can. -/
theorem queue_element_plain_iff {program : Program} (reachable : program.Reachable)
    {queue element : TypeId} (isQueue : program.types.node queue = .queue element) :
    (program.types.fixedSize? element = none ↔
      ∃ record, program.types.node element = .struct record ∧
        ∃ member ∈ record.members,
          ReflTransGen program.types.HoldsElement member.type queue) ∧
    ∀ descriptor : QueueMeta,
      (∀ held, ∃ after,
          Wire.writeValue program.types queue (.queue descriptor) held = .ok () after) ↔
        program.types.fixedSize? element = some descriptor.elementSize.toNat := by
  refine ⟨⟨fun unsized => ?_, ?_⟩, Wire.writeValue_queue_iff isQueue⟩
  · rcases reachable.queuesPlain queue element isQueue with sized | stands
    · rw [unsized] at sized
      cases sized
    · exact stands.exists_struct isQueue reachable.coherent.unionsPlain
  · rintro ⟨record, isStruct, holds⟩
    have stands : program.types.StandsInElement queue element :=
      ⟨record, TypeArena.record?_of_struct isStruct, holds⟩
    exact stands.fixedSize?_eq_none isQueue

/-- A file with a queue of plain structs, and one with a queue of the struct around it. -/
def queueOutcome (source : String) : ParseOutcome :=
  ({} : Program).parseSource {} [] ⟨"a/v1_0/Types.idl"⟩ source

def plainQueueSource : String :=
  "package a.v1_0; struct S \x7b int x; \x7d; struct T \x7b SharedMemQueue<S> q; \x7d;"

def ownQueueSource : String := "package a.v1_0; struct S \x7b SharedMemQueue<S> q; \x7d;"

theorem plainQueueOutcome_spec : (queueOutcome plainQueueSource).accepted = true ∧
    (queueOutcome plainQueueSource).program.types.node 16 = .queue 14 ∧
    (queueOutcome plainQueueSource).program.types.fixedSize? 14 = some 4 := by
  decide +kernel

theorem ownQueueOutcome_spec : (queueOutcome ownQueueSource).accepted = true ∧
    (queueOutcome ownQueueSource).program.types.node 15 = .queue 14 ∧
    (queueOutcome ownQueueSource).program.types.fixedSize? 14 = none := by
  decide +kernel

theorem plain_queue_descriptor_written : ∃ after,
    Wire.writeValue (queueOutcome plainQueueSource).program.types 16 (.queue ⟨0, 4, 8, true⟩)
      #[9] = .ok () after := by
  obtain ⟨-, isQueue, size⟩ := plainQueueOutcome_spec
  exact ((queue_element_plain_iff (.parse _ _ _ _ .empty) isQueue).2 ⟨0, 4, 8, true⟩).mpr size #[9]

/-- A queue of the struct around it is accepted, and the struct has no size. -/
theorem own_queue_not_plain : (queueOutcome ownQueueSource).program.Reachable ∧
    ∃ queue element, (queueOutcome ownQueueSource).program.types.node queue = .queue element ∧
      (queueOutcome ownQueueSource).program.types.fixedSize? element = none :=
  ⟨.parse _ _ _ _ .empty, 15, 14, ownQueueOutcome_spec.2⟩

end Program

end DriverIdl
