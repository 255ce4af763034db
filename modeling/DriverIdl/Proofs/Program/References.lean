import DriverIdl.Proofs.Program.SupportMatrix

/-!
# What the types of a program refer to

A file refers to a type by its name only, so whatever its members and parameters lead to is primitive,
a container of the file itself, or a declared type that the table of its unit shows.  A declared type
in a table is one that the file declares or that some earlier unit has in its own table.  Programs are
`Grounded` therefore: a type that a unit shows or reaches is declared by a unit of the program, also
where the unit of a file was given up for a sequenceable of its name.
-/

namespace DriverIdl

open Parse Relation

/-- A type that is declared, as an enum, a struct, a union or an interface. -/
def TypeArena.Declared (arena : TypeArena) (id : TypeId) : Prop :=
  (arena.node id).declaration? ≠ none

namespace TypeArena.Declared

variable {arena before after : TypeArena} {id : TypeId}

theorem lt_size (declared : arena.Declared id) : id < arena.size := by
  by_contra outside
  exact declared (by rw [node_of_size_le (Nat.le_of_not_lt outside)]; rfl)

theorem extend_iff (grown : before.Extends after) (inside : id < before.size) :
    after.Declared id ↔ before.Declared id := by
  rw [Declared, Declared, TypeNode.declaration?_congr (grown.outline_eq id inside)]

theorem ne_primitive (declared : arena.Declared id) (sound : arena.Sound) (kind : Primitive) :
    id ≠ kind.id := by
  rintro rfl
  exact declared (by rw [sound.node_primitive]; rfl)

end TypeArena.Declared

namespace TypeKey.Denotes

variable {key : TypeKey} {node : TypeNode}

/-- A declared type stands under a name. -/
theorem isNamed (denotes : key.Denotes node) (declared : node.declaration? ≠ none) :
    key.isNamed = true := by
  cases key with
  | named namespaceId name => rfl
  | _ =>
      cases denotes
      exact absurd rfl declared

/-- A type that holds elements stands under the key of a container. -/
theorem isComposite {element : TypeId} (denotes : key.Denotes node) (holds : element ∈ node.elements) :
    key.isComposite = true := by
  cases key with
  | named namespaceId name => simp [Reading.elements_of_named denotes] at holds
  | primitive kind =>
      cases denotes
      simp [TypeNode.elements] at holds
  | _ => rfl

end TypeKey.Denotes

namespace Program

/-- A unit of the program has the type among its definitions, or is the unit of the interface. -/
def DeclaresType (program : Program) (id : TypeId) : Prop :=
  ∃ unit ∈ program.units, id ∈ unit.definitions ∨
    unit.interface = some id ∧ (program.types.interface? id).isSome

/-- Whatever the unit shows or reaches, a unit of the program declares. -/
structure Grounds (program : Program) (unit : CompiledUnit) : Prop where
  shown : ∀ entry ∈ unit.table, program.types.Declared entry.2 → program.DeclaresType entry.2
  interface : ∀ id, unit.interface = some id → ∃ key, (key, id) ∈ unit.table
  reached : ∀ type, unit.Reaches program type → program.types.Declared type →
    program.DeclaresType type

/-- Whatever a unit of the program shows or reaches, a unit of the program declares. -/
def Grounded (program : Program) : Prop := ∀ unit ∈ program.units, program.Grounds unit

variable {program : Program} {options : Options} {start read : ParseState} {outcome : ParseOutcome}
  {id type : TypeId}

theorem Grounded.initial : Grounded {} :=
  fun unit listed => absurd listed (Array.not_mem_empty unit)

theorem Grounded.offered (grounded : program.Grounded) (offers : program.Offers id)
    (declared : program.types.Declared id) : program.DeclaresType id := by
  obtain ⟨unit, listed, (defined | isInterface) | ⟨key, inTable⟩⟩ := offers
  · exact ⟨unit, listed, .inl defined⟩
  · obtain ⟨key, inTable⟩ := (grounded unit listed).interface id isInterface
    exact (grounded unit listed).shown _ inTable declared
  · exact (grounded unit listed).shown _ inTable declared

theorem isSome_interface?_of_extends {before after : TypeArena} (grown : before.Extends after)
    (inside : id < before.size) :
    (after.interface? id).isSome = (before.interface? id).isSome := by
  simpa [TypeArena.unmarked?_eq] using congrArg Option.isSome (grown.unmarked?_eq inside)

theorem DeclaresType.extend {after : Program} (declares : program.DeclaresType id)
    (declared : program.types.Declared id) (grown : program.types.Extends after.types)
    (units : ∀ unit ∈ program.units, unit ∈ after.units) : after.DeclaresType id := by
  obtain ⟨unit, listed, outcome⟩ := declares
  refine ⟨unit, units unit listed, outcome.imp_right fun ⟨isInterface, found⟩ => ⟨isInterface, ?_⟩⟩
  rwa [isSome_interface?_of_extends grown declared.lt_size]

/-- What an earlier unit shows and reaches is declared as before. -/
theorem Grounded.kept {after : Program} {unit : CompiledUnit} (grounded : program.Grounded)
    (wellFormed : program.WellFormed) (keeps : program.types.KeepsNodes after.types)
    (units : ∀ unit ∈ program.units, unit ∈ after.units) (listed : unit ∈ program.units) :
    after.Grounds unit := by
  have sound := wellFormed.units unit listed
  have grounds := grounded unit listed
  have same {id : TypeId} (inside : id < program.types.size) :
      after.types.Declared id ↔ program.types.Declared id :=
    TypeArena.Declared.extend_iff keeps.toExtends inside
  refine ⟨fun entry inTable declared => ?_, grounds.interface, fun type reaches declared => ?_⟩
  · have declared := (same (sound.table entry inTable).1).mp declared
    exact (grounds.shown entry inTable declared).extend declared keeps.toExtends units
  · obtain ⟨reaches, inside⟩ :=
      (CompiledUnit.reaches_iff keeps wellFormed.types sound.shape).mp reaches
    have declared := (same inside).mp declared
    exact (grounds.reached type reaches declared).extend declared keeps.toExtends units

theorem Rejects.grounded (rejects : Rejects start read outcome)
    (advanced : start.Advances start.types.size read) (wellFormed : start.program.WellFormed)
    (grounded : start.program.Grounded) : outcome.program.Grounded := by
  obtain ⟨size, nodes⟩ := rejects.types advanced wellFormed.types
  have units : outcome.program.units = start.program.units := by
    rw [rejects.program, advanced.units]
  intro unit listed
  apply grounded.kept wellFormed
    ⟨Nat.le_of_eq size.symm, fun id below => (nodes id below).imp_right And.right⟩
  · exact fun unit listed => units ▸ listed
  · exact units ▸ listed

section Accepted

/-- Whatever the unit of a file reaches, it sees: containers that it sees are those of the file, and
what they hold was read in the file. -/
theorem Accepts.sees_of_path (accepts : Accepts options start read outcome)
    (since : read.Since start.types.size) {part : TypeId} (sees : read.unit.Sees part)
    (path : ReflTransGen read.types.HoldsElement part type) : read.unit.Sees type := by
  induction path with
  | refl => exact sees
  | @tail outer inner _ holds ih =>
      have own : start.types.size ≤ outer := by
        rcases ih with ⟨kind, rfl⟩ | ⟨key, inTable⟩
        · rw [TypeArena.HoldsElement, accepts.sound.types.node_primitive] at holds
          cases holds
        · exact since.containers _ inTable ((accepts.sound.table _ inTable).2.isComposite holds)
      refine (accepts.built.refers outer inner holds.mem_parts).resolve_left fun impossible => ?_
      rw [TypeArena.node_of_size_le own] at impossible
      cases impossible

/-- A declared type that the unit of a file sees is one that the file has declared, or that an
earlier unit declares. -/
theorem Accepts.new_or_offered (accepts : Accepts options start read outcome)
    (units : read.program.units = start.program.units) (sees : read.unit.Sees id)
    (declared : read.types.Declared id) :
    (start.types.size ≤ id ∧ read.unit.Defines id) ∨ start.program.Offers id := by
  rcases sees with ⟨kind, rfl⟩ | ⟨key, inTable⟩
  · exact absurd rfl (declared.ne_primitive accepts.sound.types kind)
  · have isNamed := (accepts.sound.table _ inTable).2.isNamed declared
    rcases accepts.built.offered _ inTable isNamed declared with isNew | offered
    · refine .inl ⟨isNew, (accepts.built.defines id declared).resolve_left fun impossible => ?_⟩
      rw [TypeArena.node_of_size_le isNew] at impossible
      exact impossible rfl
    · rw [Program.Offers, units] at offered
      exact .inr offered

/-- The interface of a unit that is added is a type that an earlier unit defines, or a new one and
an interface. -/
theorem Accepts.isInterface_of_new (accepts : Accepts options start read outcome)
    (advanced : start.Advances start.types.size read) (wellFormed : start.program.WellFormed)
    {state : ParseState} (published : Published (settled read) read.sequenceables state)
    (absent : state.program.find? read.unit.fullName = none)
    (isInterface : read.unit.interface = some id) (isNew : start.types.size ≤ id) :
    (read.types.interface? id).isSome := by
  obtain ⟨inTable, ⟨-, declared⟩ | origin⟩ := accepts.built.interface id isInterface
  · unfold TypeArena.interface?
    cases node : read.types.node id <;> simp_all [TypeNode.declaration?]
  · have noDefinitions : read.unit.definitions = [] := by
      rcases accepts.oneThing with ⟨noInterface, -⟩ | ⟨-, noDefinitions⟩
      · simp [noInterface] at isInterface
      · exact noDefinitions
    obtain ⟨inside, denotes⟩ := accepts.sound.table _ inTable
    obtain ⟨name, unitId, imported, -, present, -, -, defined⟩ :=
      imported_of_origin wellFormed advanced accepts.sound accepts.built published absent
        noDefinitions denotes origin
    have listed := Array.mem_of_getElem? present
    rw [advanced.units] at listed
    have isOld := (wellFormed.units imported listed).shape.lt_size (.inl defined)
    exact absurd isOld (Nat.not_lt.mpr isNew)

/-- What the unit of a file sees is declared once the unit has been added. -/
theorem Accepts.declaresType (accepts : Accepts options start read outcome)
    (advanced : start.Advances start.types.size read) (wellFormed : start.program.WellFormed)
    (grounded : start.program.Grounded) {state : ParseState}
    (published : Published (settled read) read.sequenceables state)
    (absent : state.program.find? read.unit.fullName = none)
    (listed : state.unit ∈ outcome.program.units) (sees : read.unit.Sees id)
    (declared : read.types.Declared id) : outcome.program.DeclaresType id := by
  rcases accepts.new_or_offered advanced.units sees declared with ⟨isNew, defines⟩ | offers
  · refine ⟨state.unit, listed, ?_⟩
    rw [published.unit, accepts.types_eq]
    exact defines.imp_right fun isInterface =>
      ⟨isInterface, accepts.isInterface_of_new advanced wellFormed published absent isInterface isNew⟩
  · have grown := (accepts.wellFormed wellFormed advanced).1
    obtain ⟨added, units⟩ := grown.units
    have inside : id < start.types.size := by
      obtain ⟨unit, isUnit, defines | ⟨key, inTable⟩⟩ := offers
      · exact (wellFormed.units unit isUnit).shape.lt_size defines
      · exact ((wellFormed.units unit isUnit).table _ inTable).1
    have before := (TypeArena.Declared.extend_iff accepts.built.types inside).mp declared
    refine (grounded.offered offers before).extend before grown.types fun unit isUnit => ?_
    rw [units]
    exact Array.mem_append_left _ isUnit

/-- A sequenceable that was set aside shows nothing that is declared, and reaches nothing. -/
theorem grounds_of_setAside {entry : String × CompiledUnit} (sound : program.types.Sound)
    (types : program.types = read.types) (setAside : SetAside read entry) : program.Grounds entry.2 := by
  obtain ⟨package, name, namespaceId, type, rfl, -, -, -, node⟩ := setAside
  rw [← types] at node
  refine ⟨?_, by simp [sequenceableUnit, CompiledUnit.register], ?_⟩
  · intro entry inTable declared
    obtain ⟨added, table, isNew⟩ := tableWith_eq
      (Primitive.all.map fun primitive => (TypeKey.primitive primitive, primitive.id))
      (.named namespaceId name) type
    have listed : entry ∈ CompiledUnit.tableWith
        (Primitive.all.map fun primitive => (TypeKey.primitive primitive, primitive.id))
        (.named namespaceId name) type := inTable
    rw [table] at listed
    rcases List.mem_append.mp listed with isPrimitive | new
    · obtain ⟨kind, -, rfl⟩ := List.mem_map.mp isPrimitive
      exact absurd rfl (declared.ne_primitive sound kind)
    · rw [isNew entry new] at declared
      exact absurd (by rw [node]; rfl) declared
  · rintro reachedType ⟨part, spells, -⟩
    obtain ⟨id, ⟨defined, isRecord⟩ | ⟨impossible, -⟩, -⟩ := CompiledUnit.spells_iff.mp spells
    · obtain rfl := List.mem_singleton.mp defined
      simp [TypeArena.record?_eq, node, TypeNode.record?] at isRecord
    · cases impossible

/-- A unit whose name was free is a new one. -/
theorem not_mem_units_of_absent (advanced : start.Advances start.types.size read)
    {state : ParseState} (published : Published (settled read) read.sequenceables state)
    (absent : state.program.find? read.unit.fullName = none) : state.unit ∉ start.program.units := by
  intro listed
  obtain ⟨added, units, -⟩ := published.units
  have isUnit : state.unit ∈ state.program.units := by
    rw [units]
    exact Array.mem_append_left _ (advanced.units ▸ listed)
  have fullName : state.unit.fullName = read.unit.fullName := by rw [published.unit]; rfl
  rw [Program.find?, Array.findIdx?_eq_none_iff] at absent
  simpa [fullName] using absent state.unit isUnit

theorem Accepts.grounded (accepts : Accepts options start read outcome)
    (advanced : start.Advances start.types.size read) (since : read.Since start.types.size)
    (wellFormed : start.program.WellFormed) (grounded : start.program.Grounded) :
    outcome.program.Grounded := by
  have types := accepts.types_eq
  obtain ⟨grown, wellFormedAfter⟩ := accepts.wellFormed wellFormed advanced
  intro unit listed
  rcases accepts.mem_units listed with isOld | ⟨entry, isEntry, rfl⟩
    | ⟨state, published, rfl, absent, -⟩
  · rw [advanced.units] at isOld
    obtain ⟨added, units⟩ := grown.units
    apply grounded.kept wellFormed _ (fun other isUnit => ?_) isOld
    · rw [types]
      exact ⟨accepts.built.types.size_le, fun id below =>
        (advanced.nodes id below).imp_right And.right⟩
    · rw [units]
      exact Array.mem_append_left _ isUnit
  · exact grounds_of_setAside wellFormedAfter.types types (accepts.built.sequenceables entry isEntry).2
  · have declares {id : TypeId} (sees : read.unit.Sees id) (declared : outcome.program.types.Declared id) :
        outcome.program.DeclaresType id :=
      accepts.declaresType advanced wellFormed grounded published absent listed sees (types ▸ declared)
    have table : state.unit.table = read.unit.table := by rw [published.unit]; rfl
    have interface : state.unit.interface = read.unit.interface := by rw [published.unit]; rfl
    refine ⟨fun entry inTable => declares (.inr ⟨entry.1, table ▸ inTable⟩), ?_, ?_⟩
    · intro id isInterface
      rw [interface] at isInterface
      exact ⟨_, table ▸ (accepts.built.interface id isInterface).1⟩
    · rintro type ⟨part, spells, path⟩
      obtain ⟨id, isDeclared, isPart⟩ := CompiledUnit.spells_iff.mp spells
      have own := accepts.declares_new wellFormed advanced listed
        (not_mem_units_of_absent advanced published absent) isDeclared
      rw [types] at isPart path
      have sees : read.unit.Sees part := by
        refine (accepts.built.refers id part (TypeNode.mem_parts_of_mem_checkedParts isPart)).resolve_left
          fun impossible => ?_
        rw [TypeArena.node_of_size_le own] at impossible
        cases impossible
      exact declares (accepts.sees_of_path since sees path)

end Accepted

theorem Reachable.grounded (reachable : program.Reachable) : program.Grounded := by
  induction reachable with
  | empty => exact .initial
  | parse options diagnostics path source reachable ih =>
      obtain ⟨read, advanced, rejects | accepts⟩ :=
        parseSource_cases reachable.wellFormed options diagnostics path source
      · exact rejects.grounded advanced reachable.wellFormed ih
      · have since := advanced.since
          (ParseState.since_start diagnostics path source (Nat.le_refl _))
        exact accepts.grounded advanced since reachable.wellFormed ih

end Program

end DriverIdl
