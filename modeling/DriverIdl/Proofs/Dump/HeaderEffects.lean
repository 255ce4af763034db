import DriverIdl.Proofs.Dump.TypeWords
import DriverIdl.Proofs.Model.Trie

/-!
# What header statements bring

A statement of a header brings in what a known unit declares, or a sequenceable that is new.  What is
brought in later changes nothing of what is visible already, so the known units can be brought in
first, as long as no new sequenceable stood in the way of a type of theirs.
-/

namespace DriverIdl

open Parse

/-- What a unit declares. -/
def CompiledUnit.declares (unit : CompiledUnit) : List TypeId :=
  unit.definitions ++ unit.interface.toList

/-- The entries by which declared types become visible. -/
def namedEntries (arena : TypeArena) (types : List TypeId) : List (TypeKey × TypeId) :=
  types.filterMap fun type => (namedKey? arena type).map (·, type)

/-- A table with entries whose keys are still free. -/
def tableWithAll (table entries : List (TypeKey × TypeId)) : List (TypeKey × TypeId) :=
  entries.foldl (fun known entry => CompiledUnit.tableWith known entry.1 entry.2) table

section Tables

variable {arena : TypeArena} {table entries : List (TypeKey × TypeId)} {key : TypeKey}
  {type : TypeId} {types : List TypeId}

theorem lookup_tableWithAll (table entries : List (TypeKey × TypeId)) (asked : TypeKey) :
    (tableWithAll table entries).lookup asked =
      (table.lookup asked).or (entries.lookup asked) := by
  induction entries generalizing table with
  | nil => simp [tableWithAll]
  | cons entry rest ih =>
      obtain ⟨key, type⟩ := entry
      have later := ih (CompiledUnit.tableWith table key type)
      rw [tableWithAll] at later ⊢
      rw [List.foldl_cons, later, CompiledUnit.lookup_tableWith, Option.or_assoc]
      congr 1
      rw [List.lookup_cons, List.lookup_cons]
      cases asked == key <;> simp

theorem mem_namedEntries {entry : TypeKey × TypeId} :
    entry ∈ namedEntries arena types ↔ entry.2 ∈ types ∧ namedKey? arena entry.2 = some entry.1 := by
  obtain ⟨key, type⟩ := entry
  simp only [namedEntries, List.mem_filterMap, Option.map_eq_some_iff, Prod.mk.injEq]
  constructor
  · rintro ⟨other, listed, named, isNamed, rfl, rfl⟩
    exact ⟨listed, isNamed⟩
  · rintro ⟨listed, isNamed⟩
    exact ⟨type, listed, key, isNamed, rfl, rfl⟩

theorem namedEntries_congr {first second : TypeArena}
    (same : ∀ type ∈ types, namedKey? second type = namedKey? first type) :
    namedEntries second types = namedEntries first types := by
  rw [namedEntries, namedEntries]
  apply List.filterMap_congr
  intro type listed
  rw [same type listed]

end Tables

/-- What a statement of a header brings in. -/
inductive HeaderEffect where
  | see (name : String) (id : UnitId)
  | add (full package name : String)

/-- Whether what is brought in is known already. -/
def HeaderEffect.isKnown : HeaderEffect → Bool
  | .see _ _ => true
  | .add _ _ _ => false

@[simp] theorem HeaderEffect.isKnown_see (name : String) (id : UnitId) :
    (see name id).isKnown = true := rfl

@[simp] theorem HeaderEffect.isKnown_add (full package name : String) :
    (add full package name).isKnown = false := rfl

namespace ParseState

/-- A known unit is imported. -/
def withImport (state : ParseState) (name : String) (id : UnitId) : ParseState :=
  { state with
    program := { state.program with types := marked state.types (unitAt state id).interface }
    unit := { state.unit with
      table := tableWithAll state.unit.table (namedEntries state.types (unitAt state id).declares)
      imports := state.unit.imports ++ [(name, id)] } }

/-- A new sequenceable is set aside. -/
def withSequenceable (state : ParseState) (full package name : String) : ParseState :=
  setAside
    { state with program :=
      { state.program with namespaces := (state.program.namespaces.intern package).2 } }
    full package name (state.program.namespaces.intern package).1

/-- The state behind what a statement brings in. -/
def behind (state : ParseState) : HeaderEffect → ParseState
  | .see name id => state.withImport name id
  | .add full package name => state.withSequenceable full package name

end ParseState

namespace Parse

open ParseState

variable {state : ParseState} {name full package : String} {id : UnitId} {place : Position}

/-- The state in which types are visible by their names. -/
def showing (state : ParseState) (types : List TypeId) : ParseState :=
  { state with unit := { state.unit with
    table := tableWithAll state.unit.table (namedEntries state.types types) } }

theorem showing_append (state : ParseState) (types others : List TypeId) :
    showing (showing state types) others = showing state (types ++ others) := by
  simp [showing, namedEntries, tableWithAll]

theorem registerNamed_eq (type : TypeId) (state : ParseState) :
    registerNamed type state = .ok () (showing state [type]) := by
  cases named : namedKey? state.types type <;>
    simp only [registerNamed, Bind.bind, EStateM.bind, types_run, named, showing, namedEntries,
      List.filterMap_cons, Option.map_none, Option.map_some, List.filterMap_nil, tableWithAll,
      List.foldl_nil, List.foldl_cons] <;> rfl

theorem forM_registerNamed_eq (types : List TypeId) (state : ParseState) :
    types.forM registerNamed state = .ok () (showing state types) := by
  induction types generalizing state with
  | nil => rfl
  | cons type rest ih =>
      have opened : (type :: rest).forM registerNamed state =
          EStateM.bind (registerNamed type) (fun _ => rest.forM registerNamed) state := rfl
      simp only [opened, EStateM.bind, registerNamed_eq, ih, showing_append, List.singleton_append]

theorem namedEntries_marked (arena : TypeArena) (interface : Option TypeId) (types : List TypeId) :
    namedEntries (marked arena interface) types = namedEntries arena types := by
  apply namedEntries_congr
  intro type _
  cases interface with
  | none => rfl
  | some type => exact namedKey?_update

theorem seeUnit_eq (imported : CompiledUnit) (state : ParseState) :
    seeUnit imported state = .ok () { showing state imported.declares with
      program := { state.program with types := marked state.types imported.interface } } := by
  cases declared : imported.interface with
  | none =>
      simp only [seeUnit, Bind.bind, EStateM.bind, forM_registerNamed_eq, declared,
        CompiledUnit.declares, Option.toList_none, List.append_nil]
      rfl
  | some type =>
      have shown := namedEntries_marked state.types (some type) [type]
      rw [CompiledUnit.declares, declared, Option.toList_some, ← showing_append]
      simp only [seeUnit, Bind.bind, EStateM.bind, forM_registerNamed_eq, declared]
      refine (registerNamed_eq _ _).trans ?_
      simp only [showing]
      rw [← shown]
      rfl

theorem importUnit_new (new : ∀ entry ∈ state.unit.imports, entry.1 ≠ name)
    (found : state.program.find? name = some id) :
    importUnit name place state = .ok () (state.withImport name id) := by
  have unlisted : ¬(state.unit.imports.any fun entry => entry.1 == name) = true := by
    intro listed
    obtain ⟨entry, isListed, same⟩ := List.any_eq_true.mp listed
    exact new entry isListed (by simpa using same)
  have assigned : assignImport name id state.unit.imports = state.unit.imports ++ [(name, id)] :=
    assignImport_of_new new
  simp only [importUnit, Bind.bind, EStateM.bind, get_run, if_neg unlisted, found, seeUnit_eq,
    addImport, withImport, ← assigned]
  rfl

theorem any_eq_false_of_new (new : ∀ entry ∈ state.unit.imports, entry.1 ≠ full)
    (notSetAside : ∀ entry ∈ state.sequenceables, entry.1 ≠ full) :
    ((state.unit.imports.any fun entry => entry.1 == full) ||
      state.sequenceables.any fun entry => entry.1 == full) = false := by
  rw [Bool.or_eq_false_iff, List.any_eq_false, List.any_eq_false]
  exact ⟨fun entry listed => by simpa using new entry listed,
    fun entry listed => by simpa using notSetAside entry listed⟩

theorem declareSequenceable_new (split : Package.splitFullName? full = some (package, name))
    (new : ∀ entry ∈ state.unit.imports, entry.1 ≠ full)
    (notSetAside : ∀ entry ∈ state.sequenceables, entry.1 ≠ full)
    (absent : state.program.find? full = none) :
    declareSequenceable full place state = .ok () (state.withSequenceable full package name) := by
  have unlisted := any_eq_false_of_new new notSetAside
  simp only [declareSequenceable, split, Bind.bind, EStateM.bind, get_run, unlisted, absent]
  rfl

end Parse

section Known

/-- The node of a package that is there already is found, and nothing is added. -/
theorem NamespaceTree.internFrom_of_foldlM {tree : NamespaceTree} {names : List String}
    {start id : NamespaceId} (found : names.foldlM tree.child? start = some id) :
    tree.internFrom start names = (id, tree) := by
  induction names generalizing start with
  | nil => simpa [internFrom] using found
  | cons name rest ih =>
      obtain ⟨child, isChild, later⟩ := Option.bind_eq_some_iff.mp found
      rw [internFrom]
      simp only [isChild]
      exact ih later

theorem NamespaceTree.intern_of_leads {tree : NamespaceTree} {package : String} {id : NamespaceId}
    (trie : tree.Trie) (leads : tree.Leads (Package.segments package) id) :
    tree.intern package = (id, tree) :=
  internFrom_of_foldlM (trie.find?_eq_some_iff.mpr leads)

/-- The unit of a sequenceable holds its type, which it shows under its own name, and its package is
there. -/
structure CompiledUnit.HoldsSequenceable (types : TypeArena) (namespaces : NamespaceTree)
    (unit : CompiledUnit) (type : TypeId) : Prop where
  interface : unit.interface = none
  definitions : unit.definitions = [type]
  visible : unit.visibleType? unit.ownKey = some type
  named : namedKey? types type = some unit.ownKey
  split : Package.splitFullName? unit.fullName = some (unit.package, unit.name)
  leads : namespaces.Leads (Package.segments unit.package) unit.namespaceId

/-- A known sequenceable is brought in like any other unit. -/
theorem Parse.declareSequenceable_known {state : ParseState} {full : String} {id : UnitId}
    {place : Position} {unit : CompiledUnit} {type : TypeId}
    (trie : state.program.namespaces.Trie) (found : state.program.find? full = some id)
    (isUnit : state.program.units[id]? = some unit) (named : unit.fullName = full)
    (holds : unit.HoldsSequenceable state.types state.program.namespaces type)
    (new : ∀ entry ∈ state.unit.imports, entry.1 ≠ full)
    (notSetAside : ∀ entry ∈ state.sequenceables, entry.1 ≠ full) :
    declareSequenceable full place state = .ok () (state.withImport full id) := by
  have unlisted := any_eq_false_of_new new notSetAside
  have split : Package.splitFullName? full = some (unit.package, unit.name) := named ▸ holds.split
  have interned := NamespaceTree.intern_of_leads trie holds.leads
  have visible : unit.visibleType? (.named unit.namespaceId unit.name) = some type := holds.visible
  have assigned : assignImport full id state.unit.imports = state.unit.imports ++ [(full, id)] :=
    assignImport_of_new new
  have here : unitAt state id = unit := by simp [unitAt, isUnit]
  have shown : namedEntries state.types unit.declares = [(unit.ownKey, type)] := by
    simp [CompiledUnit.declares, holds.interface, holds.definitions, namedEntries, holds.named]
  simp only [declareSequenceable, split, Bind.bind, EStateM.bind, get_run, unlisted, found,
    isUnit, interned, visible, Option.getD_some, Option.map_some, Option.bind_some]
  simp only [ParseState.withImport, here, shown, holds.interface, marked, addImport, ← assigned]
  rfl

end Known

namespace ParseState.Alike

variable {first second third : ParseState}

theorem unitAt (alike : Alike first second) (id : UnitId) :
    Parse.unitAt second id = Parse.unitAt first id := by
  rw [Parse.unitAt, Parse.unitAt, alike.units]

theorem namedKey? (alike : Alike first second) (type : TypeId) :
    Parse.namedKey? second.types type = Parse.namedKey? first.types type := by
  rw [← TypeArena.namedKey?_unplaced, alike.types, TypeArena.namedKey?_unplaced]

theorem marked (alike : Alike first second) (interface : Option TypeId) :
    (Parse.marked second.types interface).unplaced =
      (Parse.marked first.types interface).unplaced := by
  cases interface with
  | none => exact alike.types
  | some type =>
      rw [Parse.marked, Parse.marked, TypeArena.unplaced_update _ _ unplaced_markSerializable,
        TypeArena.unplaced_update _ _ unplaced_markSerializable, alike.types]

theorem withImport (alike : Alike first second) (name : String) (id : UnitId) :
    Alike (first.withImport name id) (second.withImport name id) where
  types := by
    rw [ParseState.withImport, ParseState.withImport, alike.unitAt]
    exact alike.marked _
  namespaces := alike.namespaces
  units := alike.units
  unit := by rw [ParseState.withImport, ParseState.withImport, alike.unit]
  visible asked := by
    have entries : namedEntries second.types (Parse.unitAt first id).declares =
        namedEntries first.types (Parse.unitAt first id).declares :=
      namedEntries_congr fun type _ => alike.namedKey? type
    have visible := alike.visible asked
    simp only [CompiledUnit.visibleType?] at visible
    simp only [ParseState.withImport, CompiledUnit.visibleType?, lookup_tableWithAll, alike.unitAt,
      entries, visible]
  sequenceables := alike.sequenceables
  errors := alike.errors

theorem withSequenceable (alike : Alike first second) (full package name : String) :
    Alike (first.withSequenceable full package name)
      (second.withSequenceable full package name) where
  types := by
    simp only [ParseState.withSequenceable, setAside, alike.namespaces]
    exact (TypeArena.unplaced_alloc _ _).trans
      ((congrArg (fun types : TypeArena => (types.alloc _).2) alike.types).trans
        (TypeArena.unplaced_alloc _ _).symm)
  namespaces := by simp only [ParseState.withSequenceable, setAside, alike.namespaces]
  units := alike.units
  unit := by
    simp only [ParseState.withSequenceable, setAside, CompiledUnit.register]
    rw [alike.unit]
  visible asked := by
    have visible := alike.visible asked
    have size : second.program.types.nodes.size = first.program.types.nodes.size := alike.size
    simp only [CompiledUnit.visibleType?] at visible
    simp only [ParseState.withSequenceable, setAside, CompiledUnit.visibleType?,
      CompiledUnit.register, CompiledUnit.lookup_tableWith, alike.namespaces, visible,
      TypeArena.alloc, size]
  sequenceables := by
    have size : second.program.types.nodes.size = first.program.types.nodes.size := alike.size
    have path : second.unit.path = first.unit.path := by rw [alike.unit]
    simp only [ParseState.withSequenceable, setAside, alike.namespaces, alike.sequenceables,
      TypeArena.alloc, size, path]
  errors := alike.errors

theorem behind (alike : Alike first second) (effect : HeaderEffect) :
    Alike (first.behind effect) (second.behind effect) :=
  match effect with
  | .see name id => alike.withImport name id
  | .add full package name => alike.withSequenceable full package name

theorem foldl (alike : Alike first second) (effects : List HeaderEffect) :
    Alike (effects.foldl ParseState.behind first) (effects.foldl ParseState.behind second) := by
  induction effects generalizing first second with
  | nil => exact alike
  | cons effect rest ih => exact ih (alike.behind effect)

end ParseState.Alike

namespace ParseState

variable {state : ParseState} {name full package short : String} {id : UnitId}

/-- The key of a sequenceable. -/
def sequenceableKey (state : ParseState) (package name : String) : TypeKey :=
  .named (state.program.namespaces.intern package).1 name

theorem visibleType?_withImport (asked : TypeKey) :
    (state.withImport name id).unit.visibleType? asked = (state.unit.visibleType? asked).or
      ((namedEntries state.types (unitAt state id).declares).lookup asked) :=
  lookup_tableWithAll _ _ asked

theorem visibleType?_withSequenceable (asked : TypeKey) :
    (state.withSequenceable full package short).unit.visibleType? asked =
      (state.unit.visibleType? asked).or
        ([(state.sequenceableKey package short, state.types.size)].lookup asked) :=
  CompiledUnit.lookup_tableWith _ _ asked _

theorem size_marked (arena : TypeArena) (interface : Option TypeId) :
    (marked arena interface).size = arena.size := by
  cases interface <;> simp [marked]

theorem marked_alloc (arena : TypeArena) (node : TypeNode) (interface : Option TypeId)
    (inside : ∀ type ∈ interface, type < arena.size) :
    marked (arena.alloc node).2 interface = ((marked arena interface).alloc node).2 := by
  cases interface with
  | none => rfl
  | some type =>
      have below := inside type rfl
      apply TypeArena.ext_node
      · simp [marked]
      · intro other listed
        rw [marked, marked]
        rcases Nat.lt_or_ge other arena.size with old | new
        · rw [TypeArena.node_alloc_of_lt (by simpa using old)]
          by_cases same : other = type
          · subst same
            have grown : other < (arena.alloc node).2.size := by
              rw [TypeArena.size_alloc]
              exact Nat.lt_succ_of_lt below
            rw [TypeArena.node_update_self grown, TypeArena.node_update_self below,
              TypeArena.node_alloc_of_lt below]
          · rw [TypeArena.node_update_of_ne same, TypeArena.node_update_of_ne same,
              TypeArena.node_alloc_of_lt old]
        · rw [size_marked, TypeArena.size_alloc] at listed
          obtain rfl : other = arena.size := Nat.le_antisymm (Nat.le_of_lt_succ listed) new
          rw [TypeArena.node_update_of_ne (Nat.ne_of_gt below), TypeArena.node_alloc_size]
          have sameSize : (arena.update type markSerializable).size = arena.size := by simp
          rw [← sameSize, TypeArena.node_alloc_size]

/-- A known unit is brought in behind a new sequenceable as in front of it, if the sequenceable hides
none of its types. -/
theorem alike_import_sequenceable
    (inside : ∀ type ∈ (unitAt state id).declares, type < state.types.size)
    (unhidden : ∀ type, (namedEntries state.types (unitAt state id).declares).lookup
        (state.sequenceableKey package short) = some type →
      state.unit.visibleType? (state.sequenceableKey package short) ≠ none) :
    Alike ((state.withSequenceable full package short).withImport name id)
      ((state.withImport name id).withSequenceable full package short) where
  types := by
    have kept := marked_alloc state.types
      (.sequenceable ⟨short, (state.program.namespaces.intern package).1⟩)
      (unitAt state id).interface fun type isInterface =>
        inside type (by simp [CompiledUnit.declares, Option.mem_def.mp isInterface])
    exact congrArg TypeArena.unplaced kept.symm
  namespaces := rfl
  units := rfl
  unit := by
    simp only [withImport, withSequenceable, setAside, CompiledUnit.register]
  visible asked := by
    have entries : namedEntries (state.types.alloc
        (.sequenceable ⟨short, (state.program.namespaces.intern package).1⟩)).2
          (unitAt state id).declares = namedEntries state.types (unitAt state id).declares :=
      namedEntries_congr fun type listed => by
        rw [namedKey?, namedKey?, TypeArena.node_alloc_of_lt (inside type listed)]
    have size : (state.withImport name id).types.size = state.types.size :=
      size_marked state.types (unitAt state id).interface
    have key : (state.withImport name id).sequenceableKey package short =
        state.sequenceableKey package short := rfl
    have late : (namedEntries (state.withSequenceable full package short).types
        (unitAt (state.withSequenceable full package short) id).declares) =
          namedEntries state.types (unitAt state id).declares := entries
    rw [visibleType?_withSequenceable, visibleType?_withImport, visibleType?_withImport,
      visibleType?_withSequenceable, size, key, late, Option.or_assoc, Option.or_assoc]
    rw [List.lookup_cons, List.lookup_nil]
    cases isKey : asked == state.sequenceableKey package short with
    | false => simp
    | true =>
        obtain rfl : asked = state.sequenceableKey package short := by simpa using isKey
        cases seen : state.unit.visibleType? (state.sequenceableKey package short) with
        | some _ => simp
        | none =>
            cases shown : (namedEntries state.types (unitAt state id).declares).lookup
                (state.sequenceableKey package short) with
            | none => simp
            | some type => exact absurd seen (unhidden type shown)
  sequenceables := by
    have size : (marked state.types (unitAt state id).interface).nodes.size =
        state.types.nodes.size := size_marked state.types (unitAt state id).interface
    simp only [withImport, withSequenceable, setAside, TypeArena.alloc]
    rw [size]
  errors := rfl

/-- What is known before is known behind: units, names of types, and what is visible. -/
structure Brings (before after : ParseState) : Prop where
  size_le : before.types.size ≤ after.types.size
  units : after.program.units = before.program.units
  named : ∀ type < before.types.size,
    Parse.namedKey? after.types type = Parse.namedKey? before.types type
  visible : ∀ key type, before.unit.visibleType? key = some type →
    after.unit.visibleType? key = some type

namespace Brings

variable {before middle after : ParseState}

theorem refl (state : ParseState) : Brings state state :=
  ⟨Nat.le_refl _, rfl, fun _ _ => rfl, fun _ _ seen => seen⟩

theorem trans (first : Brings before middle) (second : Brings middle after) :
    Brings before after where
  size_le := Nat.le_trans first.size_le second.size_le
  units := second.units.trans first.units
  named type inside :=
    (second.named type (Nat.lt_of_lt_of_le inside first.size_le)).trans (first.named type inside)
  visible key type seen := second.visible key type (first.visible key type seen)

theorem behind (state : ParseState) (effect : HeaderEffect) : Brings state (state.behind effect) :=
  match effect with
  | .see name id =>
    { size_le := Nat.le_of_eq (size_marked _ _).symm
      units := rfl
      named := fun type _ => by
        have same : (state.behind (.see name id)).types =
            marked state.types (Parse.unitAt state id).interface := rfl
        rw [same]
        cases (Parse.unitAt state id).interface with
        | none => rfl
        | some interface => exact namedKey?_update
      visible := fun key type seen => by
        rw [ParseState.behind, visibleType?_withImport, seen, Option.some_or] }
  | .add full package name =>
    { size_le := by
        rw [ParseState.behind, withSequenceable, setAside]
        exact Nat.le_of_lt (by simp [ParseState.types])
      units := rfl
      named := fun type inside => by
        have same : (state.behind (.add full package name)).types = (state.types.alloc
            (.sequenceable ⟨name, (state.program.namespaces.intern package).1⟩)).2 := rfl
        rw [same, Parse.namedKey?, Parse.namedKey?, TypeArena.node_alloc_of_lt inside]
      visible := fun key type seen => by
        rw [ParseState.behind, visibleType?_withSequenceable, seen, Option.some_or] }

theorem foldl (state : ParseState) (effects : List HeaderEffect) :
    Brings state (effects.foldl ParseState.behind state) := by
  induction effects generalizing state with
  | nil => exact refl state
  | cons effect rest ih => exact (behind state effect).trans (ih _)

theorem unitAt (brings : Brings before after) (id : UnitId) :
    Parse.unitAt after id = Parse.unitAt before id := by
  rw [Parse.unitAt, Parse.unitAt, brings.units]

end Brings

/-- What a state shows of a known unit. -/
def shownOf (state : ParseState) (id : UnitId) : List (TypeKey × TypeId) :=
  namedEntries state.types (unitAt state id).declares

theorem Brings.shownOf {before after : ParseState} (brings : Brings before after)
    (inside : ∀ type ∈ (Parse.unitAt before id).declares, type < before.types.size) :
    after.shownOf id = before.shownOf id := by
  rw [ParseState.shownOf, ParseState.shownOf, brings.unitAt]
  exact namedEntries_congr fun type listed => brings.named type (inside type listed)

/-- A known unit is hidden by nothing that is new since a mark. -/
def Unhidden (mark : Nat) (before after : ParseState) (id : UnitId) : Prop :=
  ∀ key type, (before.shownOf id).lookup key = some type →
    ∀ seen, after.unit.visibleType? key = some seen → seen < mark

variable {mark : Nat}

/-- A known unit is brought in in front of new sequenceables as behind them. -/
theorem alike_import_foldl {adds : List HeaderEffect} (onlyNew : ∀ effect ∈ adds, effect.isKnown = false)
    (grown : mark ≤ state.types.size)
    (inside : ∀ type ∈ (unitAt state id).declares, type < mark)
    (unhidden : Unhidden mark state (adds.foldl behind state) id) :
    Alike ((adds.foldl behind state).withImport name id)
      (adds.foldl behind (state.withImport name id)) := by
  induction adds generalizing state with
  | nil => exact .refl _
  | cons effect rest ih =>
      have brings := Brings.behind state effect
      have known : ∀ type ∈ (unitAt state id).declares, type < state.types.size :=
        fun type listed => Nat.lt_of_lt_of_le (inside type listed) grown
      have later := @ih (state.behind effect)
        (fun other listed => onlyNew other (List.mem_cons_of_mem _ listed))
        (Nat.le_trans grown brings.size_le) (by rwa [brings.unitAt]) (by
          rw [Unhidden, brings.shownOf known]
          exact unhidden)
      cases effect with
      | see other unit => cases onlyNew _ List.mem_cons_self
      | add full package short =>
          refine later.trans (.foldl (alike_import_sequenceable known ?_) rest)
          intro type shown hidden
          -- The sequenceable would be what is visible, and it is new.
          have visible : (state.withSequenceable full package short).unit.visibleType?
              (state.sequenceableKey package short) = some state.types.size := by
            rw [visibleType?_withSequenceable, hidden]
            simp
          have stays := (Brings.foldl _ rest).visible _ _ visible
          exact absurd (unhidden _ type shown _ stays) (Nat.not_lt.mpr grown)

/-- The known units among what is brought in, and then the new sequenceables. -/
def knownFirst (effects : List HeaderEffect) : List HeaderEffect :=
  effects.filter HeaderEffect.isKnown ++ effects.filter fun effect => !effect.isKnown

/-- What is known can be brought in first. -/
theorem alike_knownFirst {effects : List HeaderEffect} (grown : mark ≤ state.types.size)
    (inside : ∀ name id, .see name id ∈ effects →
      ∀ type ∈ (unitAt state id).declares, type < mark)
    (unhidden : ∀ name id, .see name id ∈ effects →
      Unhidden mark state (effects.foldl behind state) id) :
    Alike (effects.foldl behind state) ((knownFirst effects).foldl behind state) := by
  induction effects using List.reverseRecOn with
  | nil => exact .refl _
  | append_singleton effects last ih =>
      have brings := Brings.behind (effects.foldl behind state) last
      have whole : (effects ++ [last]).foldl behind state =
          (effects.foldl behind state).behind last := by simp
      rw [whole] at unhidden ⊢
      have earlier := ih
        (fun name id listed => inside name id (List.mem_append_left _ listed))
        (fun name id listed key type shown seen visible =>
          unhidden name id (List.mem_append_left _ listed) key type shown seen
            (brings.visible key seen visible))
      have next := earlier.behind last
      cases last with
      | add full package short =>
          have sorted : knownFirst (effects ++ [.add full package short]) =
              knownFirst effects ++ [.add full package short] := by
            simp [knownFirst]
          rw [sorted, List.foldl_append]
          exact next
      | see name id =>
          have sorted : knownFirst (effects ++ [.see name id]) =
              effects.filter HeaderEffect.isKnown ++ .see name id ::
                effects.filter fun effect => !effect.isKnown := by
            simp [knownFirst, List.filter_cons]
          have listed : HeaderEffect.see name id ∈ effects ++ [.see name id] := by simp
          have opened := Brings.foldl state (effects.filter HeaderEffect.isKnown)
          have known : ∀ type ∈ (unitAt state id).declares, type < state.types.size :=
            fun type isListed => Nat.lt_of_lt_of_le (inside name id listed type isListed) grown
          rw [knownFirst, List.foldl_append] at next earlier
          rw [sorted, List.foldl_append]
          refine next.trans (alike_import_foldl (by simp)
            (Nat.le_trans grown opened.size_le) ?_ ?_)
          · rw [opened.unitAt]
            exact inside name id listed
          · intro key type shown seen visible
            rw [opened.shownOf known] at shown
            rw [earlier.visible key] at visible
            exact unhidden name id listed key type shown seen (brings.visible key seen visible)

end ParseState

end DriverIdl
