import DriverIdl.Proofs.Containment.Verdict
import DriverIdl.Proofs.Program.Reachable

/-!
# What every program keeps

A program only grows at its end: a refused text leaves no type behind, and an accepted one leaves
the records of earlier texts as they are.  Every new struct or union is a definition of the unit that
was accepted, so the containment check has looked at it.  Old types do not refer to new ones, so a
cycle of containment would have to start at a new type, and the size of an old type is what it was.

The invariant is `Coherent`, together with `WellFormed`; each text keeps it.
-/

namespace DriverIdl

open Parse Relation

namespace TypeNode

/-- Two types of one outline with the same members are one, unless they are interfaces. -/
theorem eq_of_outline_eq {first second : TypeNode} (outline : first.outline = second.outline)
    (records : first.record? = second.record?) :
    first = second ∨ ∃ old new, first = .interface old ∧ second = .interface new := by
  cases first <;> cases second <;> simp_all [TypeNode.outline, record?]

end TypeNode

namespace TypeArena

/-- The second arena grew from the first, whose structs and unions have kept their members. -/
structure KeepsRecords (before after : TypeArena) : Prop extends Extends before after where
  record_eq : ∀ id < before.size, after.record? id = before.record? id

theorem Contains.inner_lt_size {arena : TypeArena} (sound : arena.Sound) {outer inner : TypeId}
    (contains : arena.Contains outer inner) : inner < arena.size := by
  exact sound.parts_lt outer inner contains.mem_parts

namespace KeepsRecords

variable {before after : TypeArena} {id outer inner : TypeId}

theorem contains_iff (keeps : before.KeepsRecords after) (inside : outer < before.size) :
    after.Contains outer inner ↔ before.Contains outer inner := by
  rw [Contains, Contains, keeps.record_eq outer inside]

/-- What an old type contains, it contained before. -/
theorem path (keeps : before.KeepsRecords after) (sound : before.Sound)
    (inside : outer < before.size) (path : TransGen after.Contains outer inner) :
    TransGen before.Contains outer inner ∧ inner < before.size := by
  induction path with
  | single edge =>
      have edge := (keeps.contains_iff inside).mp edge
      exact ⟨.single edge, edge.inner_lt_size sound⟩
  | tail _ edge ih =>
      have edge := (keeps.contains_iff ih.2).mp edge
      exact ⟨ih.1.tail edge, edge.inner_lt_size sound⟩

/-- No cycle runs through an old type, so none is left if none runs through a new one. -/
theorem acyclic (keeps : before.KeepsRecords after) (sound : before.Sound)
    (old : before.Acyclic)
    (new : ∀ id, before.size ≤ id → ¬TransGen after.Contains id id) : after.Acyclic := by
  intro id cycle
  rcases Nat.lt_or_ge id before.size with inside | outside
  · exact old id (keeps.path sound inside cycle).1
  · exact new id outside cycle

theorem fixedSizeWithin_eq (keeps : before.KeepsRecords after) (sound : before.Sound) (depth : Nat)
    (inside : id < before.size) :
    after.fixedSizeWithin depth id = before.fixedSizeWithin depth id := by
  induction depth generalizing id with
  | zero => rfl
  | succ depth ih =>
      have records : (after.node id).record? = (before.node id).record? := by
        rw [← record?_eq, keeps.record_eq id inside, record?_eq]
      rcases TypeNode.eq_of_outline_eq (keeps.outline_eq id inside) records with
        same | ⟨old, new, isOld, isNew⟩
      · exact sizeRule_congr same fun inner contains => ih (contains.inner_lt_size sound)
      · rw [fixedSizeWithin, fixedSizeWithin, isOld, isNew]

/-- The size of an old type does not depend on the types behind it. -/
theorem fixedSize?_eq (keeps : before.KeepsRecords after) (sound : before.Sound)
    (acyclic : before.Acyclic) (inside : id < before.size) :
    after.fixedSize? id = before.fixedSize? id := by
  rw [fixedSize?, keeps.fixedSizeWithin_eq sound _ inside]
  exact fixedSizeWithin_eq_fixedSize? (acyclic.not_reachesCycle id)
    (Nat.lt_succ_of_le keeps.size_le)

end KeepsRecords

theorem record?_initial (id : TypeId) : ({} : TypeArena).record? id = none := by
  rcases Nat.lt_or_ge id Primitive.all.length with inside | outside
  · have noRecord : ∀ index < Primitive.all.length,
        (({} : TypeArena).node index).record? = none := by decide
    rw [record?_eq, noRecord id inside]
  · exact record?_of_size_le outside

/-- The members of every union are plain data. -/
def UnionsPlain (arena : TypeArena) : Prop :=
  ∀ id record, arena.node id = .union record →
    ∀ member ∈ record.members, (arena.fixedSize? member.type).isSome

theorem KeepsRecords.unionsPlain {before after : TypeArena} (keeps : before.KeepsRecords after)
    (sound : before.Sound) (acyclic : before.Acyclic) (old : before.UnionsPlain)
    (new : ∀ id, before.size ≤ id → ∀ record, after.node id = .union record →
      ∀ member ∈ record.members, (after.fixedSize? member.type).isSome) : after.UnionsPlain := by
  intro id record isUnion member listed
  rcases Nat.lt_or_ge id before.size with inside | outside
  · have found : before.record? id = some record := by
      rw [← keeps.record_eq id inside, record?_of_union isUnion]
    have wasUnion : before.node id = .union record := by
      have outline := keeps.outline_eq id inside
      rw [isUnion] at outline
      rw [record?_eq] at found
      cases node : before.node id <;> simp_all [TypeNode.outline, TypeNode.record?]
    have memberInside := (Contains.of_member found listed).inner_lt_size sound
    rw [keeps.fixedSize?_eq sound acyclic memberInside]
    exact old id record wasUnion member listed
  · exact new id outside record isUnion member listed

end TypeArena

namespace Program

/-- What holds of the records and the listed types of every program, beside its well-formedness. -/
structure Coherent (program : Program) : Prop where
  listed : ∀ id, ∀ type ∈ (program.namespaces.node id).listed, type < program.types.size
  proper : ∀ id record, program.types.record? id = some record → record.Proper
  acyclic : program.types.Acyclic
  unionsPlain : program.types.UnionsPlain

theorem Coherent.initial : Coherent {} where
  listed id type isListed := by
    match id with
    | 0 => simp [NamespaceTree.node, Namespace.listed] at isListed
    | id + 1 => simp [NamespaceTree.node, Namespace.listed] at isListed
  proper id record found := by simp [TypeArena.record?_initial] at found
  acyclic := by
    apply TypeArena.acyclic_of_height fun _ => 0
    intro outer _ record found
    simp [TypeArena.record?_initial] at found
  unionsPlain id record isUnion := by
    have found := TypeArena.record?_of_union isUnion
    simp [TypeArena.record?_initial] at found

/-- A step to a program with more types keeps coherence if the new types are in order. -/
theorem Coherent.extend {before after : Program} (coherent : before.Coherent)
    (sound : before.types.Sound) (keeps : before.types.KeepsRecords after.types)
    (listed : ∀ id, ∀ type ∈ (after.namespaces.node id).listed, type < after.types.size)
    (new : ∀ id, before.types.size ≤ id → ∀ record, after.types.record? id = some record →
      record.Proper ∧ ¬TransGen after.types.Contains id id ∧
        (after.types.node id = .union record →
          ∀ member ∈ record.members, (after.types.fixedSize? member.type).isSome)) :
    after.Coherent where
  listed := listed
  proper id record found := by
    rcases Nat.lt_or_ge id before.types.size with inside | outside
    · rw [keeps.record_eq id inside] at found
      exact coherent.proper id record found
    · exact (new id outside record found).1
  acyclic := by
    apply keeps.acyclic sound coherent.acyclic
    intro id outside cycle
    obtain ⟨inner, ⟨record, found, -⟩, -⟩ := TransGen.head'_iff.mp cycle
    exact (new id outside record found).2.1 cycle
  unionsPlain := by
    apply keeps.unionsPlain sound coherent.acyclic coherent.unionsPlain
    intro id outside record isUnion
    exact (new id outside record (TypeArena.record?_of_union isUnion)).2.2 isUnion

variable {program : Program} {options : Options} {start read : ParseState} {outcome : ParseOutcome}

/-- Marks do not touch records. -/
theorem keepsRecords_of_nodes {before after : TypeArena} (grown : before.Extends after)
    (nodes : ∀ id < before.size, after.node id = before.node id ∨
      after.node id = markSerializable (before.node id)) : before.KeepsRecords after where
  toExtends := grown
  record_eq id inside := by
    apply TypeArena.record?_congr
    rcases nodes id inside with same | marked
    · rw [same]
    · rw [marked, record?_markSerializable]

theorem Rejects.coherent (rejects : Rejects start read outcome)
    (advanced : start.Advances start.types.size read) (sound : start.types.Sound)
    (coherent : start.program.Coherent) : outcome.program.Coherent := by
  obtain ⟨size, nodes⟩ := rejects.types advanced sound
  have marks := fun id below => (nodes id below).imp_right And.right
  apply coherent.extend sound (keepsRecords_of_nodes (types_extends_of_marks size marks) marks)
  · intro id type isListed
    rw [size]
    apply coherent.listed id
    rw [rejects.program] at isListed
    rwa [← advanced.listed id]
  · intro id outside record found
    rw [TypeArena.record?_of_size_le (by rw [size]; exact outside)] at found
    cases found

/-- A struct or union that an accepted text has added is one of the definitions of its unit. -/
theorem Accepts.defined {id : TypeId} {record : RecordType}
    (accepts : Accepts options start read outcome) (outside : start.types.size ≤ id)
    (found : outcome.program.types.record? id = some record) :
    id ∈ read.unit.definitions ∧ record.Proper := by
  rw [accepts.types_eq] at found
  refine (accepts.built.records id record found).resolve_left fun impossible => ?_
  rw [TypeArena.record?_of_size_le outside] at impossible
  cases impossible

theorem Accepts.lt_size_of_listed (accepts : Accepts options start read outcome)
    (advanced : start.Advances start.types.size read)
    (coherent : start.program.Coherent) (id : NamespaceId) :
    ∀ type ∈ (outcome.program.namespaces.node id).listed, type < outcome.program.types.size := by
  intro type isListed
  rw [accepts.types_eq]
  rcases accepts.listed id type isListed with earlier | isInterface | ⟨entry, isEntry, defined⟩
  · rw [advanced.listed id] at earlier
    exact Nat.lt_of_lt_of_le (coherent.listed id type earlier) accepts.built.types.size_le
  · have visible := (accepts.built.interface type isInterface).1
    exact (accepts.sound.table _ visible).1
  · obtain ⟨-, package, name, namespaceId, declared, rfl, -, -, inside, -⟩ :=
      accepts.built.sequenceables entry isEntry
    obtain rfl := List.mem_singleton.mp defined
    exact inside

theorem Accepts.coherent (accepts : Accepts options start read outcome)
    (advanced : start.Advances start.types.size read) (sound : start.types.Sound)
    (coherent : start.program.Coherent) : outcome.program.Coherent := by
  have types := accepts.types_eq
  have keeps : start.types.KeepsRecords outcome.program.types := by
    rw [types]
    apply keepsRecords_of_nodes accepts.built.types
    exact fun id below => (advanced.nodes id below).imp_right And.right
  have faultless : Containment.faults read.types read.unit.definitions = [] :=
    List.map_eq_nil_iff.mp accepts.contained
  obtain ⟨nested, unions⟩ := Containment.faults_eq_nil_iff.mp faultless
  apply coherent.extend sound keeps (accepts.lt_size_of_listed advanced coherent)
  intro id outside record found
  obtain ⟨defined, proper⟩ := accepts.defined outside found
  rw [types]
  refine ⟨proper, fun cycle => ?_, Containment.unionFaults_eq_nil_iff.mp unions id defined record⟩
  exact Containment.nestingFaults_eq_nil_iff.mp nested id defined (.of_onCycle cycle)

theorem Coherent.parseSource (coherent : program.Coherent) (wellFormed : program.WellFormed)
    (options : Options) (diagnostics : List Diagnostic) (path : Path) (source : String) :
    (program.parseSource options diagnostics path source).program.Coherent := by
  obtain ⟨read, advanced, rejects | accepts⟩ :=
    parseSource_cases wellFormed options diagnostics path source
  · exact rejects.coherent advanced wellFormed.types coherent
  · exact accepts.coherent advanced wellFormed.types coherent

theorem Reachable.coherent (reachable : program.Reachable) : program.Coherent := by
  induction reachable with
  | empty => exact .initial
  | parse options diagnostics path source reachable ih =>
      exact ih.parseSource reachable.wellFormed options diagnostics path source

end Program

/-- The types that a key refers to. -/
def TypeKey.parts : TypeKey → List TypeId
  | .array element | .list element | .queue element => [element]
  | .map key value => [key, value]
  | .primitive _ | .named _ _ => []

theorem TypeKey.Denotes.parts_subset {key : TypeKey} {node : TypeNode} (denotes : key.Denotes node) :
    key.parts ⊆ node.parts := by
  cases key with
  | named namespaceId name => simp [TypeKey.parts]
  | _ =>
      cases denotes
      simp [TypeKey.parts, TypeNode.parts]

namespace CompiledUnit

/-- The types that a unit refers to: those of its table, with the parts of their keys, its
definitions and its interface. -/
def typeIds (unit : CompiledUnit) : List TypeId :=
  unit.table.flatMap (fun entry => entry.2 :: entry.1.parts) ++ unit.definitions ++
    unit.interface.toList

theorem Shape.lt_size {program : Program} {unit : CompiledUnit} (shape : unit.Shape program)
    {id : TypeId} (declares : id ∈ unit.definitions ∨ unit.interface = some id) :
    id < program.types.size := by
  cases shape with
  | sequenceable type kind noInterface definitions inside node =>
      obtain rfl : id = type := by simpa [definitions, noInterface] using declares
      exact inside
  | types kind noInterface definitions declared =>
      have defined : id ∈ unit.definitions := by simpa [noInterface] using declares
      obtain ⟨found, isDeclared, -⟩ := declared id defined
      by_contra outside
      rw [TypeArena.node_of_size_le (Nat.le_of_not_lt outside)] at isDeclared
      cases isDeclared
  | interface type kind isInterface definitions inside denotes declared =>
      obtain rfl : type = id := by simpa [definitions, isInterface] using declares
      exact inside

theorem Sound.lt_size_of_mem_typeIds {program : Program} {unit : CompiledUnit}
    (sound : unit.Sound program) (types : program.types.Sound) {type : TypeId}
    (listed : type ∈ unit.typeIds) : type < program.types.size := by
  simp only [typeIds, List.mem_append, List.mem_flatMap, List.mem_cons, Option.mem_toList] at listed
  rcases listed with (⟨entry, isEntry, rfl | part⟩ | defined) | isInterface
  · exact (sound.table entry isEntry).1
  · exact types.parts_lt entry.2 type ((sound.table entry isEntry).2.parts_subset part)
  · exact sound.shape.lt_size (.inl defined)
  · exact sound.shape.lt_size (.inr isInterface)

end CompiledUnit

namespace Program

/-- What holds of all programs that parsing builds.  Every number of a type that a type, a unit or a
namespace holds is one of the arena, and every number of a unit that a unit imports is one of the
program.  Every struct and union has members, with names of their own.  No type contains itself by
value, so a size is found at every depth beyond the number of types, whatever stands below, and the
members of every union have one. -/
structure Invariant (program : Program) : Prop where
  parts : ∀ id, ∀ part ∈ (program.types.node id).parts, part < program.types.size
  unitTypes : ∀ unit ∈ program.units, ∀ type ∈ unit.typeIds, type < program.types.size
  namespaceTypes : ∀ id, ∀ type ∈ (program.namespaces.node id).listed, type < program.types.size
  imports : ∀ unit ∈ program.units, ∀ entry ∈ unit.imports, entry.2 < program.units.size
  records : ∀ id record, program.types.record? id = some record →
    record.members ≠ [] ∧ (record.members.map Member.name).Nodup
  acyclic : ∀ id, ¬TransGen program.types.Contains id id
  sizes : ∀ id depth, program.types.size < depth →
    program.types.fixedSizeWithin depth id = program.types.fixedSize? id
  sizesEnd : ∀ id deeper,
    program.types.sizeDown deeper (program.types.size + 1) id = program.types.fixedSize? id
  unions : ∀ id record, program.types.node id = .union record →
    ∀ member ∈ record.members, (program.types.fixedSize? member.type).isSome

theorem reachable_program_invariant {program : Program} (reachable : program.Reachable) :
    program.Invariant := by
  have wellFormed := reachable.wellFormed
  have coherent := reachable.coherent
  exact {
    parts := wellFormed.types.parts_lt
    unitTypes := fun unit isUnit _ listed =>
      (wellFormed.units unit isUnit).lt_size_of_mem_typeIds wellFormed.types listed
    namespaceTypes := coherent.listed
    imports := by
      intro unit isUnit entry isImport
      obtain ⟨imported, present, -⟩ :=
        find?_eq_some ((wellFormed.units unit isUnit).imports entry isImport)
      exact (Array.getElem?_eq_some_iff.mp present).1
    records := coherent.proper
    acyclic := coherent.acyclic
    sizes := fun id _ enough =>
      TypeArena.fixedSizeWithin_eq_fixedSize? (coherent.acyclic.not_reachesCycle id) enough
    sizesEnd := fun id deeper =>
      TypeArena.sizeDown_eq_fixedSize? (coherent.acyclic.not_reachesCycle id) deeper
    unions := coherent.unionsPlain }

/-- A file with a union over a struct. -/
def unionSource : String :=
  "package a.v1_0; struct S \x7b int x; \x7d; union U \x7b S s; long n; \x7d;"

/-- A file that is refused once it has been read, since its struct contains itself. -/
def nestedSource : String :=
  "package a.v1_0; import a.v1_0.A; struct T \x7b T t; \x7d;"

/-- What comes of the second file. -/
def nestedOutcome : ParseOutcome :=
  (({} : Program).parseSource {} [] ⟨"a/v1_0/A.idl"⟩ unionSource).program.parseSource {} []
    ⟨"a/v1_0/B.idl"⟩ nestedSource

/-- The second file is refused, and the union of the first one stays. -/
theorem nestedOutcome_spec : nestedOutcome.accepted = false ∧
    nestedOutcome.program.types.node (Primitive.all.length + 1) matches .union _ := by
  decide +kernel

theorem reachable_union_is_plain : nestedOutcome.program.Reachable ∧
    ∃ id record, nestedOutcome.program.types.node id = .union record ∧ record.members ≠ [] ∧
      ∀ member ∈ record.members, (nestedOutcome.program.types.fixedSize? member.type).isSome := by
  have reachable : nestedOutcome.program.Reachable :=
    .parse {} [] ⟨"a/v1_0/B.idl"⟩ nestedSource
      (.parse {} [] ⟨"a/v1_0/A.idl"⟩ unionSource .empty)
  have invariant := reachable_program_invariant reachable
  cases node : nestedOutcome.program.types.node (Primitive.all.length + 1) with
  | union record =>
      refine ⟨reachable, _, record, node, ?_, invariant.unions _ record node⟩
      exact (invariant.records _ record (TypeArena.record?_of_union node)).1
  | _ =>
      have isUnion := nestedOutcome_spec.2
      simp [node] at isUnion

end Program

end DriverIdl
