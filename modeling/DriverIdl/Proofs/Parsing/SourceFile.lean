import DriverIdl.Proofs.Parsing.HeaderStatements
import DriverIdl.Proofs.Parsing.InterfaceBody

/-!
# What a file builds

A file without errors is a package, header statements and declarations.  `Built` says what the state
holds after some of them: which types came into being, where each declared type that the unit sees
comes from, and that the definitions and the interface of the unit are the declarations that the
tokens spell.  Each statement keeps it.
-/

namespace DriverIdl

namespace CompiledUnit

/-- The unit defines a type, or the type is its interface. -/
def Defines (unit : CompiledUnit) (id : TypeId) : Prop :=
  id ∈ unit.definitions ∨ unit.interface = some id

/-- The unit defines a type or shows it in its table. -/
def Offers (unit : CompiledUnit) (id : TypeId) : Prop :=
  unit.Defines id ∨ ∃ key, (key, id) ∈ unit.table

/-- A name of the unit's own namespace denotes a type. -/
def NamesOwn (unit : CompiledUnit) (id : TypeId) : Prop :=
  ∃ name, unit.visibleType? (.named unit.namespaceId name) = some id

/-- Names denote what they did while the table only grows. -/
theorem NamesOwn.grow {unit grown : CompiledUnit} {id : TypeId} (names : unit.NamesOwn id)
    (table : unit.table <+: grown.table) (namespaceId : grown.namespaceId = unit.namespaceId) :
    grown.NamesOwn id := by
  obtain ⟨name, visible⟩ := names
  obtain ⟨added, table⟩ := table
  refine ⟨name, ?_⟩
  rw [visibleType?] at visible ⊢
  rw [← table, namespaceId, List.lookup_append, visible, Option.some_or]

end CompiledUnit

namespace Program

/-- A unit of the program defines a type. -/
def Defines (program : Program) (id : TypeId) : Prop := ∃ unit ∈ program.units, unit.Defines id

/-- A unit of the program defines a type or shows it. -/
def Offers (program : Program) (id : TypeId) : Prop := ∃ unit ∈ program.units, unit.Offers id

end Program

namespace Parse

open ParseState

variable {mark : Nat} {known : Prop} {options : Options} {origin before after : ParseState}

/-- A unit of the program or a sequenceable of the file has a name. -/
def Knows (state : ParseState) (full : String) : Prop :=
  (∃ unitId, state.program.find? full = some unitId) ∨ ∃ unit, (full, unit) ∈ state.sequenceables

/-- Where a declared type comes from that a unit sees and that is not its interface: the unit
declares it, a unit that it imports does, or it is a sequenceable that some unit is named for. -/
inductive Origin (state : ParseState) : TypeKey → TypeId → Prop where
  | own {key : TypeKey} {id : TypeId} (listed : id ∈ state.unit.definitions) : Origin state key id
  | imported {key : TypeKey} {id : TypeId} {name : String} {unitId : UnitId}
      (listed : (name, unitId) ∈ state.unit.imports)
      (declares : id ∈ (unitAt state unitId).definitions ∨
        (unitAt state unitId).interface = some id) : Origin state key id
  | sequenceable {namespaceId : NamespaceId} {name : String} {id : TypeId}
      (inside : namespaceId < state.program.namespaces.nodes.size)
      (knows : Knows state
        (Package.fullName (state.program.namespaces.fullName namespaceId) name)) :
      Origin state (.named namespaceId name) id

/-- What nothing in a file takes back. -/
structure Continues (options : Options) (mark : Nat) (before after : ParseState) : Prop where
  tokens : after.tokens <:+ before.tokens
  units : after.program.units = before.program.units
  namespaces : before.program.namespaces.Extends after.program.namespaces
  types : before.types.Extends after.types
  builds : before.types.Builds options mark after.types
  path : after.unit.path = before.unit.path
  name : after.unit.name = before.unit.name
  package : after.unit.package = before.unit.package
  namespaceId : after.unit.namespaceId = before.unit.namespaceId
  definitions : before.unit.definitions ⊆ after.unit.definitions
  imports : before.unit.imports ⊆ after.unit.imports
  sequenceables : before.sequenceables ⊆ after.sequenceables
  interface : ∀ id, before.unit.interface = some id → after.unit.interface = some id

theorem Origin.mono {key : TypeKey} {id : TypeId} (origin : Origin before key id)
    (wellFormed : before.program.namespaces.WellFormed)
    (continues : Continues options mark before after) :
    Origin after key id := by
  cases origin with
  | own listed => exact .own (continues.definitions listed)
  | imported listed declares =>
      apply Origin.imported (continues.imports listed)
      rwa [unitAt, continues.units]
  | sequenceable inside knows =>
      apply Origin.sequenceable (Nat.lt_of_lt_of_le inside continues.namespaces.size_le)
      rw [continues.namespaces.fullName_eq wellFormed inside]
      rcases knows with ⟨unitId, found⟩ | ⟨unit, listed⟩
      · refine .inl ⟨unitId, ?_⟩
        rwa [Program.find?, continues.units]
      · exact .inr ⟨unit, continues.sequenceables listed⟩

theorem Origin.counted {state : ParseState} {key : TypeKey} {id : TypeId}
    (found : Origin state key id) : Origin state.counted key id := by
  cases found with
  | own listed => exact .own listed
  | imported listed declares => exact .imported listed declares
  | sequenceable inside knows => exact .sequenceable inside knows

/-- A sequenceable of the file, set aside in a unit that is named for it. -/
def SetAside (state : ParseState) (entry : String × CompiledUnit) : Prop :=
  ∃ package name namespaceId type,
    entry = (Package.fullName package name,
      sequenceableUnit state.unit.path package name namespaceId type) ∧
    namespaceId < state.program.namespaces.nodes.size ∧
    state.program.namespaces.fullName namespaceId = package ∧
    type < state.types.size ∧ state.types.node type = .sequenceable ⟨name, namespaceId⟩

theorem SetAside.mono {entry : String × CompiledUnit} (setAside : SetAside before entry)
    (wellFormed : before.program.namespaces.WellFormed)
    (continues : Continues options mark before after) :
    SetAside after entry := by
  obtain ⟨package, name, namespaceId, type, rfl, inside, isPackage, typeInside, node⟩ := setAside
  refine ⟨package, name, namespaceId, type, by rw [continues.path],
    Nat.lt_of_lt_of_le inside continues.namespaces.size_le, ?_,
    Nat.lt_of_lt_of_le typeInside continues.types.size_le, ?_⟩
  · rw [continues.namespaces.fullName_eq wellFormed inside, isPackage]
  · have same := continues.types.outline_eq type typeInside
    rw [node] at same
    generalize after.types.node type = found at same
    cases found <;> simp_all [TypeNode.outline]

/-- The definitions and the interface of the unit are the declarations that were read. -/
def Spelled (origin state : ParseState) : Prop :=
  ∃ read, spelledDeclarations origin.tokens = read ++ spelledDeclarations state.tokens ∧
    state.unit.definitions.map (fun id => (state.types.node id).declaration?) =
      (read.filter fun declared => declared.1 ≠ .interface).map some ∧
    state.unit.interface.toList.map (fun _ => (TokenKind.interface, state.unit.name)) =
      read.filter fun declared => declared.1 = .interface

/-- What a file has built after some of its statements, without an error. -/
structure Built (options : Options) (mark : Nat) (origin state : ParseState) : Prop where
  tokens : state.tokens <:+ origin.tokens
  package : ∃ read, Announced .packageWord state.unit.package origin read
  types : origin.types.Extends state.types
  builds : origin.types.Builds options mark state.types
  records : ∀ id record, state.types.record? id = some record →
    origin.types.record? id = some record ∨ id ∈ state.unit.definitions ∧ record.Proper
  interfaces : ∀ id declared, state.types.unmarked? id = some declared →
    origin.types.unmarked? id = some declared ∨
      FromText options origin.tokens state.types declared
  enums : ∀ id declared, state.types.node id = .enum declared →
    origin.types.node id = .enum declared ∨ EnumFromText options origin.tokens declared
  defines : origin.types.AddsDeclared state.types state.unit.Defines
  refers : origin.Refers state
  offered : ∀ entry ∈ state.unit.table, entry.1.isNamed = true →
    (state.types.node entry.2).declaration? ≠ none →
      origin.types.size ≤ entry.2 ∨ state.program.Offers entry.2
  imports : ∀ entry ∈ state.unit.imports, state.program.find? entry.1 = some entry.2
  sequenceables : ∀ entry ∈ state.sequenceables,
    Announces .sequenceable entry.1 origin.tokens ∧ SetAside state entry
  visible : ∀ entry ∈ state.unit.table, entry.1.isNamed = true →
    Origin state entry.1 entry.2 ∨ state.unit.interface = some entry.2
  defined : ∀ id ∈ state.unit.definitions, origin.types.size ≤ id
  denoted : ∀ id ∈ state.unit.definitions, state.unit.NamesOwn id
  interface : ∀ id, state.unit.interface = some id →
    (state.unit.ownKey, id) ∈ state.unit.table ∧
      (origin.types.size ≤ id ∧
          (state.types.node id).declaration? = some (.interface, state.unit.name) ∨
        Origin state state.unit.ownKey id)
  spelled : Spelled origin state

theorem Built.counted {state : ParseState} (built : Built options mark origin state) :
    Built options mark origin state.counted :=
  { built with
    visible := fun entry listed isNamed =>
      (built.visible entry listed isNamed).imp_left .counted
    interface := fun id isInterface =>
      (built.interface id isInterface).imp_right fun outcome => outcome.imp_right .counted }

/-- A definition of the unit is an enum, a struct or a union. -/
theorem Spelled.declared {state : ParseState} {id : TypeId} (spelled : Spelled origin state)
    (listed : id ∈ state.unit.definitions) :
    ∃ declared, (state.types.node id).declaration? = some declared ∧ declared.1 ≠ .interface := by
  obtain ⟨read, -, types, -⟩ := spelled
  have isDeclared : (state.types.node id).declaration? ∈
      state.unit.definitions.map fun id => (state.types.node id).declaration? :=
    List.mem_map.mpr ⟨id, listed, rfl⟩
  rw [types] at isDeclared
  obtain ⟨declared, kept, same⟩ := List.mem_map.mp isDeclared
  exact ⟨declared, same.symm, by simpa using (List.mem_filter.mp kept).2⟩

theorem Spelled.declarations_eq {arena : TypeArena} (spelled : Spelled origin before)
    (grown : before.types.Extends arena) :
    before.unit.definitions.map (fun id => (arena.node id).declaration?) =
      before.unit.definitions.map fun id => (before.types.node id).declaration? := by
  apply List.map_congr_left
  intro id listed
  obtain ⟨declared, isDeclared, -⟩ := spelled.declared listed
  rw [grown.declaration?_eq isDeclared, isDeclared]

/-- Declarations that were read stay read while the arena grows. -/
theorem Spelled.extend (spelled : Spelled origin before) (grown : before.types.Extends after.types)
    (tokens : spelledDeclarations before.tokens = spelledDeclarations after.tokens)
    (definitions : after.unit.definitions = before.unit.definitions)
    (interface : after.unit.interface = before.unit.interface)
    (name : after.unit.name = before.unit.name) : Spelled origin after := by
  have ⟨read, whole, types, interfaces⟩ := spelled
  refine ⟨read, by rw [whole, tokens], ?_, by rw [interface, name, interfaces]⟩
  rw [definitions, spelled.declarations_eq grown, types]

/-- What a part of a file does: the types that become visible have an origin, imports are found,
sequenceables are announced, and the interface is named like the unit. -/
structure Step (options : Options) (mark : Nat) (origin before after : ParseState) : Prop extends
    Continues options mark before after where
  table : ∃ added, after.unit.table = before.unit.table ++ added ∧
    ∀ entry ∈ added, entry.1.isNamed = true →
      Origin after entry.1 entry.2 ∨ after.unit.interface = some entry.2
  found : ∀ entry ∈ after.unit.imports,
    entry ∈ before.unit.imports ∨ before.program.find? entry.1 = some entry.2
  setAside : ∀ entry ∈ after.sequenceables, entry ∈ before.sequenceables ∨
    Announces .sequenceable entry.1 origin.tokens ∧ SetAside after entry
  defined : ∀ id ∈ after.unit.definitions, id ∈ before.unit.definitions ∨ before.types.size ≤ id
  denoted : ∀ id ∈ after.unit.definitions, id ∈ before.unit.definitions ∨ after.unit.NamesOwn id
  declared : ∀ id, after.unit.interface = some id → before.unit.interface = some id ∨
    (after.unit.ownKey, id) ∈ after.unit.table ∧
      (before.types.size ≤ id ∧
          (after.types.node id).declaration? = some (.interface, after.unit.name) ∨
        Origin after after.unit.ownKey id)
  records : ∀ id record, after.types.record? id = some record →
    before.types.record? id = some record ∨ id ∈ after.unit.definitions ∧ record.Proper
  interfaces : ∀ id declared, after.types.unmarked? id = some declared →
    before.types.unmarked? id = some declared ∨
      FromText options before.tokens after.types declared
  enums : ∀ id declared, after.types.node id = .enum declared →
    before.types.node id = .enum declared ∨ EnumFromText options before.tokens declared
  defines : before.types.AddsDeclared after.types after.unit.Defines
  refers : before.Refers after
  offered : ∀ entry ∈ after.unit.table, entry.1.isNamed = true → entry ∈ before.unit.table ∨
    ((after.types.node entry.2).declaration? ≠ none →
      before.types.size ≤ entry.2 ∨ after.program.Offers entry.2)
  spelled : Spelled origin before → Spelled origin after

theorem Built.step (built : Built options mark origin before) (sound : before.Sound)
    (step : Step options mark origin before after) : Built options mark origin after where
  tokens := step.tokens.trans built.tokens
  package := by
    rw [step.package]
    exact built.package
  types := built.types.trans step.types
  builds := built.builds.trans step.builds
  records id record found := by
    rcases step.records id record found with earlier | new
    · exact (built.records id record earlier).imp_right (And.imp_left (@step.definitions id))
    · exact .inr new
  interfaces id declared found := by
    rcases step.interfaces id declared found with earlier | new
    · refine (built.interfaces id declared earlier).imp_right fun fromText => ?_
      exact fromText.mono (List.suffix_refl _) step.types
    · exact .inr (new.mono built.tokens (.refl _))
  enums id declared isEnum := by
    rcases step.enums id declared isEnum with earlier | new
    · exact built.enums id declared earlier
    · exact .inr (new.mono built.tokens)
  defines := built.defines.trans step.defines
    (fun id => Or.imp (@step.definitions id) (step.interface id)) fun _ defines => defines
  refers := by
    obtain ⟨added, table, -⟩ := step.table
    exact built.refers.trans step.refers (table ▸ List.subset_append_left _ _)
  offered entry listed isNamed isDeclared := by
    rcases step.offered entry listed isNamed with earlier | new
    · have inside := (sound.table entry earlier).1
      rw [TypeNode.declaration?_congr (step.types.outline_eq _ inside)] at isDeclared
      rw [Program.Offers, step.units]
      exact built.offered entry earlier isNamed isDeclared
    · exact (new isDeclared).imp_left (Nat.le_trans built.types.size_le)
  imports entry listed := by
    rw [Program.find?, step.units]
    rcases step.found entry listed with earlier | found
    · exact built.imports entry earlier
    · exact found
  sequenceables entry listed := by
    rcases step.setAside entry listed with earlier | new
    · obtain ⟨announced, setAside⟩ := built.sequenceables entry earlier
      exact ⟨announced, setAside.mono sound.namespaces step.toContinues⟩
    · exact new
  visible entry listed isNamed := by
    obtain ⟨added, table, origins⟩ := step.table
    rw [table] at listed
    rcases List.mem_append.mp listed with earlier | new
    · rcases built.visible entry earlier isNamed with origin | isInterface
      · exact .inl (origin.mono sound.namespaces step.toContinues)
      · exact .inr (step.interface _ isInterface)
    · exact origins entry new isNamed
  defined id listed := by
    rcases step.defined id listed with earlier | behind
    · exact built.defined id earlier
    · exact Nat.le_trans built.types.size_le behind
  denoted id listed := by
    obtain ⟨added, table, -⟩ := step.table
    rcases step.denoted id listed with earlier | names
    · exact (built.denoted id earlier).grow ⟨added, table.symm⟩ step.namespaceId
    · exact names
  interface id isInterface := by
    have key : after.unit.ownKey = before.unit.ownKey := by
      rw [CompiledUnit.ownKey, step.namespaceId, step.name, CompiledUnit.ownKey]
    rcases step.declared id isInterface with earlier | new
    · obtain ⟨listed, outcome⟩ := built.interface id earlier
      obtain ⟨added, table, -⟩ := step.table
      rw [key, table]
      refine ⟨List.mem_append_left _ listed, ?_⟩
      rcases outcome with ⟨behind, isDeclared⟩ | origin
      · rw [step.name]
        exact .inl ⟨behind, step.types.declaration?_eq isDeclared⟩
      · exact .inr (origin.mono sound.namespaces step.toContinues)
    · obtain ⟨listed, outcome⟩ := new
      exact ⟨listed, outcome.imp_left (And.imp_left (Nat.le_trans built.types.size_le))⟩
  spelled := step.spelled built.spelled

/-- A part of a file that declares nothing. -/
theorem Step.of_grows (grows : Grows options mark before after)
    (tokens : after.tokens <:+ before.tokens)
    (spelled : spelledDeclarations before.tokens = spelledDeclarations after.tokens) :
    Step options mark origin before after := by
  obtain ⟨added, table, keys⟩ := grows.table
  refine
    { tokens := tokens
      units := by rw [grows.program]
      namespaces := by rw [grows.program]; exact .refl _
      types := grows.types
      builds := grows.builds
      path := by rw [grows.unit]
      name := by rw [grows.unit]
      package := by rw [grows.unit]
      namespaceId := by rw [grows.unit]
      definitions := by rw [grows.unit]; exact List.Subset.refl _
      imports := by rw [grows.unit]; exact List.Subset.refl _
      sequenceables := by rw [grows.sequenceables]; exact List.Subset.refl _
      interface := by rw [grows.unit]; exact fun _ same => same
      table := ⟨added, table, ?_⟩
      found := by rw [grows.unit]; exact fun _ listed => .inl listed
      setAside := by rw [grows.sequenceables]; exact fun _ listed => .inl listed
      defined := by rw [grows.unit]; exact fun _ listed => .inl listed
      denoted := by rw [grows.unit]; exact fun _ listed => .inl listed
      declared := by rw [grows.unit]; exact fun _ same => .inl same
      records := fun id record found => .inl (by rw [← grows.records id, found])
      interfaces := fun id declared found => .inl (by rw [← grows.interfaces id, found])
      enums := fun _ _ isEnum =>
        (grows.types.enum_of_addsDeclared grows.undeclared isEnum).imp_right False.elim
      defines := grows.undeclared.mono fun _ => False.elim
      refers := grows.refers
      offered := ?_
      spelled := ?_ }
  · intro entry listed isNamed
    rw [keys entry listed] at isNamed
    cases isNamed
  · intro entry listed isNamed
    rw [table] at listed
    refine .inl ((List.mem_append.mp listed).resolve_right fun isNew => ?_)
    rw [keys entry isNew] at isNamed
    cases isNamed
  · intro earlier
    apply earlier.extend grows.types spelled <;> rw [grows.unit]

theorem Step.of_reads (reads : Reads options mark before after) : Step options mark origin before after :=
  .of_grows reads.toGrows reads.suffix reads.spelledDeclarations_eq

theorem Step.of_announced {keyword : TokenKind} {name : String}
    (announced : Announced keyword name before after)
    (notDeclaring : keyword ∉ [TokenKind.enum, .struct, .union, .interface]) :
    Step options mark origin before after :=
  .of_grows (.of_sameButTokens announced.same) announced.suffix
    (announced.spelledDeclarations_eq notDeclaring)

theorem builds_marked (arena : TypeArena) (interface : Option TypeId) :
    arena.Builds options mark (marked arena interface) := by
  cases interface with
  | none => exact .refl
  | some type => exact .single (.mark arena type)

theorem record?_marked (arena : TypeArena) (interface : Option TypeId) (id : TypeId) :
    (marked arena interface).record? id = arena.record? id := by
  cases interface with
  | none => rfl
  | some type =>
      by_cases isMarked : id = type
      · subst isMarked
        rcases Nat.lt_or_ge id arena.size with inside | outside
        · apply TypeArena.record?_congr
          rw [marked, TypeArena.node_update_self inside, record?_markSerializable]
        · rw [TypeArena.record?_of_size_le outside, TypeArena.record?_of_size_le]
          rwa [marked, TypeArena.size_update]
      · exact TypeArena.record?_update_of_ne isMarked _

theorem addsDeclared_marked (arena : TypeArena) (interface : Option TypeId)
    {added : TypeId → Prop} : arena.AddsDeclared (marked arena interface) added := by
  cases interface with
  | none => exact .refl arena
  | some type => exact .update arena type markSerializable_outline

/-- A mark brings no reference. -/
theorem refers_marked {interface : Option TypeId}
    (types : after.types = marked before.types interface) : before.Refers after := by
  cases interface with
  | none => exact .of_types types
  | some type =>
      refine .update types fun part listed => .inl ?_
      rwa [markSerializable_parts] at listed

theorem unmarked?_marked (arena : TypeArena) (interface : Option TypeId) (id : TypeId) :
    (marked arena interface).unmarked? id = arena.unmarked? id := by
  cases interface with
  | none => rfl
  | some type => exact TypeArena.unmarked?_update type markSerializable_outline

theorem Step.of_imports {name : String} {id : UnitId} (imports : Imports name id before after) :
    Step options mark origin before after := by
  obtain ⟨added, table, origins⟩ := imports.table
  have grown := imports.types_extends
  have types := imports.types
  have state := imports.state
  refine
    { tokens := (show after.tokens = before.tokens by rw [state]) ▸ List.suffix_refl _
      units := by rw [state]
      namespaces := by rw [state]; exact .refl _
      types := grown
      builds := by rw [types]; exact builds_marked _ _
      path := by rw [state]
      name := by rw [state]
      package := by rw [state]
      namespaceId := by rw [state]
      definitions := by rw [state]; exact List.Subset.refl _
      imports := by rw [state]; exact List.subset_append_left _ _
      sequenceables := by rw [state]; exact List.Subset.refl _
      interface := by rw [state]; exact fun _ same => same
      table := ⟨added, table, ?_⟩
      found := ?_
      setAside := by rw [state]; exact fun _ listed => .inl listed
      defined := by rw [state]; exact fun _ listed => .inl listed
      denoted := by rw [state]; exact fun _ listed => .inl listed
      declared := by rw [state]; exact fun _ same => .inl same
      records := by
        rw [types]
        exact fun id record found => .inl (by rw [← record?_marked, found])
      interfaces := by
        rw [types]
        exact fun id declared found => .inl (by rw [← unmarked?_marked, found])
      enums := fun _ _ isEnum => by
        have undeclared : before.types.AddsDeclared after.types fun _ => False :=
          types ▸ addsDeclared_marked _ _
        exact (grown.enum_of_addsDeclared undeclared isEnum).imp_right False.elim
      defines := by rw [types]; exact addsDeclared_marked _ _
      refers := refers_marked types
      offered := ?_
      spelled := ?_ }
  · intro entry listed _
    left
    apply Origin.imported
    · rw [state]
      exact List.mem_append_right _ (List.mem_singleton_self (name, id))
    · rw [unitAt, state]
      exact (origins entry listed).1
  · rw [state]
    intro entry listed
    rcases List.mem_append.mp listed with earlier | last
    · exact .inl earlier
    · rw [List.mem_singleton.mp last]
      exact .inr imports.found
  · intro entry listed _
    rw [table] at listed
    refine (List.mem_append.mp listed).imp_right fun isNew _ => .inr ?_
    refine ⟨unitAt before id, ?_, .inl (origins entry isNew).1⟩
    rw [state]
    exact (unitAt_mem imports.found).1
  · intro spelled
    apply spelled.extend grown <;> rw [state]

section Sequenceable

variable {full package name : String} {id : UnitId} {type : TypeId}

/-- The namespace of a sequenceable is that of its package. -/
theorem Sees.namespaceId_spec (sees : Sees full package name type before after)
    (sound : before.Sound) (dotted : Package.Dotted full) :
    (before.program.namespaces.intern package).1 < after.program.namespaces.nodes.size ∧
      after.program.namespaces.fullName (before.program.namespaces.intern package).1 = package := by
  obtain ⟨-, inside, -⟩ :=
    before.program.namespaces.intern_spec sound.namespaces (sees.dotted dotted)
  rw [sees.state]
  exact ⟨inside, fullName_intern sound.namespaces (sees.dotted dotted)⟩

/-- What both kinds of sequenceables do. -/
theorem Step.of_sees (sees : Sees full package name type before after) (sound : before.Sound)
    (dotted : Package.Dotted full) (grown : before.types.Extends after.types)
    (builds : before.types.Builds options mark after.types)
    (records : ∀ id, after.types.record? id = before.types.record? id)
    (interfaces : ∀ id, after.types.unmarked? id = before.types.unmarked? id)
    (undeclared : before.types.AddsDeclared after.types fun _ => False)
    (refers : before.Refers after)
    (offered : (after.types.node type).declaration? ≠ none → after.program.Offers type)
    (imports : before.unit.imports ⊆ after.unit.imports)
    (sequenceables : before.sequenceables ⊆ after.sequenceables) (knows : Knows after full)
    (found : ∀ entry ∈ after.unit.imports,
      entry ∈ before.unit.imports ∨ before.program.find? entry.1 = some entry.2)
    (setAside : ∀ entry ∈ after.sequenceables, entry ∈ before.sequenceables ∨
      Announces .sequenceable entry.1 origin.tokens ∧ SetAside after entry) :
    Step options mark origin before after := by
  obtain ⟨added, table, keys⟩ := sees.table
  have unit := sees.unit
  have state := sees.state
  obtain ⟨inside, isPackage⟩ := sees.namespaceId_spec sound dotted
  refine
    { tokens := (show after.tokens = before.tokens by rw [state]) ▸ List.suffix_refl _
      units := by rw [state]
      namespaces := ?_
      types := grown
      builds := builds
      path := by rw [unit]
      name := by rw [unit]
      package := by rw [unit]
      namespaceId := by rw [unit]
      definitions := by rw [unit]; exact List.Subset.refl _
      imports := imports
      sequenceables := sequenceables
      interface := by rw [unit]; exact fun _ same => same
      table := ⟨added, table, ?_⟩
      found := found
      setAside := setAside
      defined := by rw [unit]; exact fun _ listed => .inl listed
      denoted := by rw [unit]; exact fun _ listed => .inl listed
      declared := by rw [unit]; exact fun _ same => .inl same
      records := fun id record found => .inl (by rw [← records id, found])
      interfaces := fun id declared found => .inl (by rw [← interfaces id, found])
      enums := fun _ _ isEnum =>
        (grown.enum_of_addsDeclared undeclared isEnum).imp_right False.elim
      defines := undeclared.mono fun _ => False.elim
      refers := refers
      offered := ?_
      spelled := ?_ }
  · rw [state]
    exact (before.program.namespaces.intern_spec sound.namespaces (sees.dotted dotted)).1
  · intro entry listed _
    rw [keys entry listed]
    refine .inl (.sequenceable inside ?_)
    rwa [isPackage, Package.splitFullName?_eq_some sees.split]
  · intro entry listed _
    rw [table] at listed
    refine (List.mem_append.mp listed).imp_right fun isNew isDeclared => .inr ?_
    rw [keys entry isNew] at isDeclared ⊢
    exact offered isDeclared
  · intro spelled
    apply spelled.extend grown
    · rw [state]
    all_goals rw [unit]

theorem Step.of_shares (shares : Shares full package name id type before after)
    (sound : before.Sound) (dotted : Package.Dotted full) : Step options mark origin before after := by
  apply Step.of_sees shares.toSees sound dotted
  · rw [shares.types]
    exact .refl _
  · rw [shares.types]
  · rw [shares.types]
    exact fun _ => rfl
  · rw [shares.types]
    exact fun _ => rfl
  · rw [shares.types]
    exact .refl _
  · exact .of_types shares.types
  · intro _
    refine ⟨unitAt before id, ?_, .inr ⟨_, CompiledUnit.mem_table_of_visibleType? shares.visible⟩⟩
    rw [shares.state]
    exact (unitAt_mem shares.found).1
  · rw [shares.imports]
    exact List.subset_append_left _ _
  · rw [shares.sequenceables]
    exact List.Subset.refl _
  · refine .inl ⟨id, ?_⟩
    rw [shares.state]
    exact shares.found
  · rw [shares.imports]
    intro entry listed
    rcases List.mem_append.mp listed with earlier | last
    · exact .inl earlier
    · rw [List.mem_singleton.mp last]
      exact .inr shares.found
  · rw [shares.sequenceables]
    exact fun _ listed => .inl listed

theorem Step.of_adds (adds : Adds full package name before after) (sound : before.Sound)
    (dotted : Package.Dotted full) (announced : Announces .sequenceable full origin.tokens) :
    Step options mark origin before after := by
  have whole := Package.splitFullName?_eq_some adds.split
  obtain ⟨inside, isPackage⟩ := adds.toSees.namespaceId_spec sound dotted
  apply Step.of_sees adds.toSees sound dotted
  · rw [adds.types]
    exact .alloc _ _
  · rw [adds.types]
    refine .single (.add ?_)
    exact
      { made := by simp
        own := by simp [TypeNode.parts]
        integral := by simp
        usable := by simp [TypeNode.checkedParts, TypeNode.parts]
        elements := by simp [TypeNode.elements]
        plain := by simp
        unfilled := by simp [TypeNode.record?]
        words := by
          simpa [TypeNode.names] using Package.isWord_of_splitFullName? dotted adds.split }
  · rw [adds.types]
    exact fun _ => TypeArena.record?_alloc rfl
  · rw [adds.types]
    exact fun _ => TypeArena.unmarked?_alloc rfl
  · rw [adds.types]
    exact (TypeArena.AddsDeclared.alloc _ _).mono fun _ declared => declared.2 rfl
  · exact .alloc adds.types (by simp [TypeNode.parts])
  · rw [adds.types, TypeArena.node_alloc_size]
    exact fun isDeclared => absurd rfl isDeclared
  · rw [adds.imports]
    exact List.Subset.refl _
  · rw [adds.sequenceables]
    exact List.subset_append_left _ _
  · rw [Knows, adds.sequenceables]
    exact .inr ⟨_, List.mem_append_right _ (List.mem_singleton_self _)⟩
  · rw [adds.imports]
    exact fun _ listed => .inl listed
  · rw [adds.sequenceables]
    intro entry listed
    rcases List.mem_append.mp listed with earlier | last
    · exact .inl earlier
    · rw [List.mem_singleton.mp last]
      refine .inr ⟨announced, package, name, _, before.types.size, ?_, inside, isPackage, ?_, ?_⟩
      · rw [whole, adds.unit]
      · rw [adds.types]
        simp
      · rw [adds.types, TypeArena.node_alloc_size]

end Sequenceable

section Declaration

variable {keyword : TokenKind} {name : String} {id : TypeId}

theorem Step.of_declaresWhole (declares : DeclaresWhole options mark keyword name before id after) :
    Step options mark origin before after := by
  obtain ⟨added, table, keys⟩ := declares.table
  have unit := declares.unit
  have program := declares.program
  refine
    { tokens := declares.tokens
      units := by rw [program]
      namespaces := by rw [program]; exact .refl _
      types := declares.types
      builds := declares.builds
      path := by rw [unit]
      name := by rw [unit]
      package := by rw [unit]
      namespaceId := by rw [unit]
      definitions := by rw [unit]; exact List.subset_append_left _ _
      imports := by rw [unit]; exact List.Subset.refl _
      sequenceables := by rw [declares.sequenceables]; exact List.Subset.refl _
      interface := by rw [unit]; exact fun _ same => same
      table := ⟨added, table, ?_⟩
      found := by rw [unit]; exact fun _ listed => .inl listed
      setAside := by rw [declares.sequenceables]; exact fun _ listed => .inl listed
      defined := by
        rw [unit]
        intro other listed
        refine (List.mem_append.mp listed).imp_right fun isNew => ?_
        exact List.mem_singleton.mp isNew ▸ declares.behind
      denoted := ?_
      declared := by rw [unit]; exact fun _ same => .inl same
      records := ?_
      interfaces := fun other declared found => .inl (by rw [← declares.interfaces other, found])
      enums := fun other declared isEnum => by
        refine (declares.types.enum_of_addsDeclared declares.only isEnum).imp_right fun same => ?_
        exact declares.enums declared (same ▸ isEnum)
      defines := declares.only.mono fun _ same => .inl <| by
        rw [unit, same]
        exact List.mem_append_right _ (List.mem_singleton_self id)
      refers := declares.refers
      offered := ?_
      spelled := ?_ }
  · intro entry listed isNamed
    rw [keys entry listed isNamed]
    refine .inl (.own ?_)
    rw [unit]
    exact List.mem_append_right _ (List.mem_singleton_self id)
  · intro other listed
    rw [unit] at listed
    refine (List.mem_append.mp listed).imp_right fun isNew => ?_
    have namespaceId : after.unit.namespaceId = before.unit.namespaceId := by rw [unit]
    rw [List.mem_singleton.mp isNew]
    exact ⟨name, namespaceId ▸ declares.visible⟩
  · intro other record found
    by_cases isNew : other = id
    · subst isNew
      refine .inr ⟨?_, declares.proper record found⟩
      rw [unit]
      exact List.mem_append_right _ (List.mem_singleton_self other)
    · rw [declares.records other isNew] at found
      exact .inl found
  · intro entry listed isNamed
    rw [table] at listed
    refine (List.mem_append.mp listed).imp_right fun isNew _ => .inl ?_
    rw [keys entry isNew isNamed]
    exact declares.behind
  · rintro spelled
    have ⟨read, whole, types, interfaces⟩ := spelled
    refine ⟨read ++ [(keyword, name)], ?_, ?_, ?_⟩
    · rw [whole, declares.spelled, List.append_assoc]
      rfl
    · rw [unit]
      simp [spelled.declarations_eq declares.types, types, declares.node, declares.notInterface]
    · rw [unit]
      simp [interfaces, declares.notInterface]

/-- The type that the interface is known by is a new one, or was visible by its name already. -/
theorem DeclaresInterface.node_or_listed (declares : DeclaresInterface options mark before id after) :
    (before.types.size ≤ id ∧
        (after.types.node id).declaration? = some (.interface, before.unit.name)) ∨
      (before.unit.ownKey, id) ∈ before.unit.table := by
  cases visible : before.unit.visibleType? before.unit.ownKey with
  | none => exact .inl (declares.node visible)
  | some other =>
      have same : id = other := by
        obtain ⟨added, table, -⟩ := declares.table
        have lookup := declares.visible
        rw [CompiledUnit.visibleType?] at visible
        rw [CompiledUnit.visibleType?, table, List.lookup_append] at lookup
        rw [CompiledUnit.ownKey] at visible
        simpa [visible] using lookup.symm
      exact .inr (same ▸ CompiledUnit.mem_table_of_visibleType? visible)

/-- An enum that the interface is known by was there before. -/
theorem DeclaresInterface.enum_eq {declared : EnumType}
    (declares : DeclaresInterface options mark before id after) (sound : before.Sound)
    (isEnum : after.types.node id = .enum declared) : before.types.node id = .enum declared := by
  rcases declares.node_or_listed with ⟨-, isDeclared⟩ | listed
  · rw [isEnum] at isDeclared
    cases isDeclared
  · exact declares.types.enum_eq (sound.table _ listed).1 isEnum

/-- A type that is visible by the name of the interface already is taken for it; it must come from
elsewhere. -/
theorem Built.interface_origin (built : Built options mark origin before)
    (declares : DeclaresInterface options mark before id after) :
    before.types.size ≤ id ∧
        (after.types.node id).declaration? = some (.interface, before.unit.name) ∨
      Origin before before.unit.ownKey id := by
  rcases declares.node_or_listed with isNew | listed
  · exact .inl isNew
  · refine .inr ((built.visible _ listed rfl).resolve_right fun isInterface => ?_)
    simp [declares.absent] at isInterface

theorem Step.of_declaresInterface (declares : DeclaresInterface options mark before id after)
    (built : Built options mark origin before) (sound : before.Sound) :
    Step options mark origin before after := by
  obtain ⟨added, table, keys⟩ := declares.table
  have unit := declares.unit
  have program := declares.program
  have continues : Continues options mark before after :=
    { tokens := declares.tokens
      units := by rw [program]
      namespaces := by rw [program]; exact .refl _
      types := declares.types
      builds := declares.builds
      path := by rw [unit]
      name := by rw [unit]
      package := by rw [unit]
      namespaceId := by rw [unit]
      definitions := by rw [unit]; exact List.Subset.refl _
      imports := by rw [unit]; exact List.Subset.refl _
      sequenceables := by rw [declares.sequenceables]; exact List.Subset.refl _
      interface := by simp [declares.absent] }
  have key : after.unit.ownKey = before.unit.ownKey := by
    rw [CompiledUnit.ownKey, continues.namespaceId, continues.name, CompiledUnit.ownKey]
  refine
    { continues with
      table := ⟨added, table, ?_⟩
      found := by rw [unit]; exact fun _ listed => .inl listed
      setAside := by rw [declares.sequenceables]; exact fun _ listed => .inl listed
      defined := by rw [unit]; exact fun _ listed => .inl listed
      denoted := by rw [unit]; exact fun _ listed => .inl listed
      declared := ?_
      records := fun other record found => .inl (by rw [← declares.records other, found])
      interfaces := declares.interfaces
      enums := fun other declared isEnum => by
        rcases declares.types.enum_of_addsDeclared declares.only isEnum with earlier | rfl
        · exact .inl earlier
        · exact .inl (declares.enum_eq sound isEnum)
      defines := declares.only.mono fun _ same => .inr (by rw [unit, same])
      refers := declares.refers
      offered := ?_
      spelled := ?_ }
  · intro entry listed isNamed
    rw [keys entry listed isNamed, unit]
    exact .inr rfl
  · intro other isInterface
    obtain rfl : id = other := by
      rw [unit] at isInterface
      simpa using isInterface
    rw [key, continues.name]
    refine .inr ⟨CompiledUnit.mem_table_of_visibleType? declares.visible, ?_⟩
    rcases built.interface_origin declares with isDeclared | origin
    · exact .inl isDeclared
    · exact .inr (origin.mono sound.namespaces continues)
  · intro entry listed isNamed
    rw [table] at listed
    rcases List.mem_append.mp listed with earlier | isNew
    · exact .inl earlier
    · rw [keys entry isNew isNamed]
      rcases declares.node_or_listed with ⟨behind, -⟩ | known
      · exact .inr fun _ => .inl behind
      · exact .inl known
  · intro spelled
    have ⟨read, whole, types, interfaces⟩ := spelled
    refine ⟨read ++ [(.interface, before.unit.name)], ?_, ?_, ?_⟩
    · rw [whole, declares.spelled, List.append_assoc]
      rfl
    · rw [unit]
      simp [spelled.declarations_eq declares.types, types]
    · rw [declares.absent] at interfaces
      rw [unit]
      simp [← interfaces]

end Declaration

section Loops

variable {kept : ParseState → Prop} {production recover : Parse Unit}

/-- A round that reads one part of the file: a clean one never recovers. -/
theorem Ensures.part {post : Unit → ParseState → Prop}
    (reads : Ensures mark known before production fun _ after =>
      kept after ∧ after.tokens.length < before.tokens.length)
    (recovers : ∀ {assumed : Prop} {state : ParseState}, (assumed → False) →
      Ensures mark assumed state recover fun _ _ => False) :
    Ensures mark known before
      (do
        if (← Parse.attempt production).isNone then recover
        return .inl ())
      (Round (fun _ state => kept state) post before) := by
  apply bind (attempt reads)
  intro result state _ _
  apply ite
  · intro isNone
    apply bind (recovers _)
    · intro _ recovered _ _
      exact pure fun ⟨_, impossible⟩ => impossible.elim
    · rintro ⟨-, value, rfl, -⟩
      simp at isNone
  · intro _
    apply pure
    rintro ⟨-, value, -, keeps, shorter⟩ -
    exact ⟨keeps, shorter⟩

theorem Ensures.importBuilt :
    Ensures mark (known ∧ Built options mark origin before) before Parse.importStatement fun _ after =>
      Built options mark origin after ∧ after.tokens.length < before.tokens.length := by
  apply importStatement.fromSound.imp
  rintro _ after ⟨-, built⟩ - ⟨sound, name, id, read, announced, imports⟩
  have builtRead := built.step sound (.of_announced announced (by decide))
  refine ⟨builtRead.step (announced.sound sound) (.of_imports imports), ?_⟩
  rw [imports.state]
  exact announced.length_lt

theorem Ensures.sequenceableBuilt :
    Ensures mark (known ∧ Built options mark origin before) before Parse.sequenceableStatement fun _ after =>
      Built options mark origin after ∧ after.tokens.length < before.tokens.length := by
  apply sequenceableStatement.fromSound.imp
  rintro _ after ⟨-, built⟩ - ⟨sound, full, package, name, read, announced, outcome⟩
  have builtRead := built.step sound (.of_announced announced (by decide))
  have soundRead := announced.sound sound
  have dotted := announced.dotted sound.spelled
  rcases outcome with ⟨id, type, shares⟩ | adds
  · refine ⟨builtRead.step soundRead (.of_shares shares soundRead dotted), ?_⟩
    rw [shares.state]
    exact announced.length_lt
  · have announces := announced.announces.of_suffix built.tokens
    refine ⟨builtRead.step soundRead (.of_adds adds soundRead dotted announces), ?_⟩
    rw [adds.state]
    exact announced.length_lt

theorem Ensures.headerStatements :
    Ensures mark (known ∧ Built options mark origin before) before headerStatements fun _ after =>
      Built options mark origin after := by
  apply loop fun _ state => Built options mark origin state
  · exact fun assumed _ => assumed.2
  · exact fun _ _ => Built.counted
  · rintro - state _
    apply bindOk (peek_run state)
    split
    · apply bindOk rfl
      exact (part importBuilt recoverStatement).under _ fun ⟨_, built⟩ => ⟨trivial, built⟩
    · apply bindOk rfl
      exact (part sequenceableBuilt recoverStatement).under _ fun ⟨_, built⟩ => ⟨trivial, built⟩
    · apply bindOk rfl
      exact pure fun ⟨_, built⟩ _ => built

theorem Ensures.declarationBuilt :
    Ensures mark (known ∧ Built options mark origin before) before (declaration options) fun _ after =>
      Built options mark origin after ∧ after.tokens.length < before.tokens.length := by
  apply bind Reading.optionalAttributes.fromSound
  rintro ⟨found, place⟩ attributed _ _
  apply bindOk (peek_run attributed)
  apply under (attributed.tokens.length ≤ before.tokens.length ∧ Built options mark origin attributed)
  · have declares : ∀ {production : Parse Unit}, (∀ {known}, Ensures mark known attributed production
        fun _ after => ∃ keyword name id, DeclaresWhole options mark keyword name attributed id after) →
        Ensures mark
          (attributed.tokens.length ≤ before.tokens.length ∧ Built options mark origin attributed)
          attributed production fun _ after =>
            Built options mark origin after ∧ after.tokens.length < before.tokens.length := by
      intro production ensures
      apply ensures.fromSound.imp
      rintro _ after ⟨fewer, built⟩ - ⟨sound, keyword, name, id, declares⟩
      exact ⟨built.step sound (.of_declaresWhole declares),
        Nat.lt_of_lt_of_le declares.shorter fewer⟩
    split
    · exact declares (enumDeclaration found place)
    · exact declares (recordDeclaration found place false)
    · exact declares (recordDeclaration found place true)
    · apply (interfaceDeclaration found).fromSound.imp
      rintro _ after ⟨fewer, built⟩ - ⟨sound, id, declares⟩
      exact ⟨built.step sound (.of_declaresInterface declares built sound),
        Nat.lt_of_lt_of_le declares.shorter fewer⟩
    case h_5 | h_6 | h_7 =>
      apply bindReport
      intro reported
      apply bind next
      intro _ skipped _ _
      exact (recoverStatement And.left).imp fun _ _ _ _ impossible => impossible.elim
    · exact unexpected
  · rintro ⟨⟨-, built⟩, sound, reads, -⟩
    exact ⟨reads.length_le, built.step sound (.of_reads reads)⟩

theorem Ensures.declarations :
    Ensures mark (known ∧ Built options mark origin before) before (declarations options) fun _ after =>
      Built options mark origin after ∧ (ahead after).kind = .eof := by
  apply loop fun _ state => Built options mark origin state
  · exact fun assumed _ => assumed.2
  · exact fun _ _ => Built.counted
  · rintro - state _
    apply bindOk (peek_run state)
    apply ite
    · intro atEnd
      exact pure fun ⟨_, built⟩ _ => ⟨built, atEnd⟩
    · intro _
      exact (part declarationBuilt recoverDeclaration).under _ fun ⟨_, built⟩ => ⟨trivial, built⟩

/-- Nothing is ahead at the end. -/
theorem tokens_eq_nil (spelled : ∀ token ∈ before.tokens, token.WellSpelled)
    (atEnd : (ahead before).kind = .eof) : before.tokens = [] := by
  cases found : before.tokens with
  | nil => rfl
  | cons token rest =>
      have notEnd := (spelled token (by simp [found])).notEnd
      simp [ahead, found] at atEnd
      exact absurd atEnd notEnd

/-- A state in which a file has not been read yet. -/
structure Fresh (state : ParseState) : Prop where
  table : ∀ entry ∈ state.unit.table, entry.1.isNamed = false
  definitions : state.unit.definitions = []
  interface : state.unit.interface = none
  imports : state.unit.imports = []
  sequenceables : state.sequenceables = []

/-- The package is all that has been read. -/
theorem Built.of_package {package : String} {version : Version} {read : ParseState}
    (fresh : Fresh before) (announced : Announced .packageWord package before read) :
    Built options mark before (withPackage read package version) := by
  have unit : read.unit = before.unit := by rw [announced.same]
  have types : read.types = before.types := by rw [announced.same]
  have sequenceables : read.sequenceables = [] := by rw [announced.same, fresh.sequenceables]
  refine
    { tokens := announced.suffix
      package := ⟨read, announced⟩
      types := ?_
      builds := ?_
      records := ?_
      interfaces := ?_
      enums := ?_
      defines := ?_
      refers := ?_
      offered := ?_
      imports := ?_
      sequenceables := ?_
      visible := ?_
      defined := ?_
      denoted := ?_
      interface := ?_
      spelled := ⟨[], ?_, ?_, ?_⟩ }
  all_goals simp only [withPackage, unit]
  · exact types ▸ .refl _
  · rw [show read.program.types = before.types from types]
  · exact fun _ _ found => .inl (types ▸ found)
  · exact fun _ _ found => .inl (types ▸ found)
  · exact fun _ _ found => .inl (types ▸ found)
  · exact types ▸ .refl _
  · exact .of_types types
  · intro entry listed isNamed
    rw [fresh.table entry listed] at isNamed
    cases isNamed
  · simp [fresh.imports]
  · simp [sequenceables]
  · intro entry listed isNamed
    rw [fresh.table entry listed] at isNamed
    cases isNamed
  · simp [fresh.definitions]
  · simp [fresh.definitions]
  · simp [fresh.interface]
  · exact announced.spelledDeclarations_eq (by decide)
  · simp [fresh.definitions]
  · simp [fresh.interface]

theorem Ensures.file (fresh : Fresh before) :
    Ensures mark known before (file options) fun _ after =>
      Built options mark before after ∧ after.tokens = [] := by
  apply bind packageStatement
  intro _ packaged _ _
  apply under (True ∧ Built options mark before packaged)
  · apply bind headerStatements
    intro _ read _ _
    apply under (True ∧ Built options mark before read)
    · apply declarations.imp
      rintro _ after - sound ⟨built, atEnd⟩
      exact ⟨built, tokens_eq_nil sound.spelled atEnd⟩
    · exact fun ⟨_, built⟩ => ⟨trivial, built⟩
  · rintro ⟨-, package, version, read, announced, rfl⟩
    exact ⟨trivial, .of_package fresh announced⟩

end Loops

end Parse

end DriverIdl
