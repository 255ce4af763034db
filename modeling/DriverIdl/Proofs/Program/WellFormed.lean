import DriverIdl.Proofs.Parsing.Publication

/-!
# Well-formed programs

Every unit of a program is a sequenceable, a list of types, or an interface.  The interface is one
of the unit's own name, with one exception: if a unit that it imports defines a type of that
namespace and name, the unit may hold that type in the place of its interface, and is `Shadowed`.
-/

namespace DriverIdl

/-- The first program is what the second one grew from. -/
structure Program.Extends (before after : Program) : Prop where
  types : before.types.Extends after.types
  namespaces : before.namespaces.Extends after.namespaces
  units : ∃ added, after.units = before.units ++ added

theorem Program.Extends.refl (program : Program) : program.Extends program :=
  ⟨.refl _, .refl _, #[], by simp⟩

theorem Program.Extends.trans {before middle after : Program} (first : before.Extends middle)
    (second : middle.Extends after) : before.Extends after := by
  obtain ⟨early, earlyUnits⟩ := first.units
  obtain ⟨late, lateUnits⟩ := second.units
  exact ⟨first.types.trans second.types, first.namespaces.trans second.namespaces, early ++ late,
    by rw [lateUnits, earlyUnits, Array.append_assoc]⟩

theorem Program.Extends.find?_eq {before after : Program} (grown : before.Extends after)
    {name : String} {id : UnitId} (found : before.find? name = some id) :
    after.find? name = some id := by
  obtain ⟨added, units⟩ := grown.units
  exact find?_of_units units found

theorem Program.Extends.getElem?_eq {before after : Program} (grown : before.Extends after)
    {id : UnitId} {unit : CompiledUnit} (present : before.units[id]? = some unit) :
    after.units[id]? = some unit := by
  obtain ⟨added, units⟩ := grown.units
  exact getElem?_of_units units present

namespace CompiledUnit

/-- A unit of types that is imported defines a type of the unit's own namespace and name. -/
def Shadowed (program : Program) (unit : CompiledUnit) : Prop :=
  ∃ name id imported, (name, id) ∈ unit.imports ∧ program.units[id]? = some imported ∧
    imported.kind = .types ∧
    ∃ type ∈ imported.definitions, unit.ownKey.Denotes (program.types.node type)

/-- What a unit can be. -/
inductive Shape (program : Program) (unit : CompiledUnit) : Prop where
  | sequenceable (id : TypeId) (kind : unit.kind = .sequenceable) (noInterface : unit.interface = none)
      (definitions : unit.definitions = [id]) (inside : id < program.types.size)
      (node : program.types.node id = .sequenceable ⟨unit.name, unit.namespaceId⟩)
  | types (kind : unit.kind = .types) (noInterface : unit.interface = none)
      (definitions : unit.definitions ≠ [])
      (declared : ∀ id ∈ unit.definitions, ∃ declared,
        (program.types.node id).declaration? = some declared ∧ declared.1 ≠ .interface)
  | interface (id : TypeId) (kind : unit.kind = Parse.unitKind program.types unit)
      (isInterface : unit.interface = some id) (definitions : unit.definitions = [])
      (inside : id < program.types.size) (denotes : unit.ownKey.Denotes (program.types.node id))
      (declared : (program.types.node id).declaration? = some (.interface, unit.name) ∨
        unit.Shadowed program)

/-- A type that a unit declares has the key of the unit, or the unit is one of types that defines
it. -/
theorem Shape.own_or_defined {program : Program} {unit : CompiledUnit} (shape : unit.Shape program)
    {id : TypeId} (declares : id ∈ unit.definitions ∨ unit.interface = some id) :
    unit.ownKey.Denotes (program.types.node id) ∨
      unit.kind = .types ∧ id ∈ unit.definitions ∧
        (program.types.node id).declaration? ≠ none := by
  cases shape with
  | sequenceable type kind noInterface definitions inside node =>
      obtain rfl : id = type := by simpa [definitions, noInterface] using declares
      rw [node]
      exact .inl ⟨rfl, rfl⟩
  | types kind noInterface definitions isDeclared =>
      have defined : id ∈ unit.definitions := by simpa [noInterface] using declares
      obtain ⟨declared, found, -⟩ := isDeclared id defined
      exact .inr ⟨kind, defined, by simp [found]⟩
  | interface type kind isInterface definitions inside denotes declared =>
      obtain rfl : type = id := by simpa [definitions, isInterface] using declares
      exact .inl denotes

/-- What holds of every unit of a program. -/
structure Sound (program : Program) (unit : CompiledUnit) : Prop where
  table : TableSound program.types unit.table
  package_inside : unit.namespaceId < program.namespaces.nodes.size
  package_name : program.namespaces.fullName unit.namespaceId = unit.package
  imports : ∀ entry ∈ unit.imports, program.find? entry.1 = some entry.2
  definitions : ∀ id ∈ unit.definitions, unit.NamesOwn id
  shape : unit.Shape program

/-- A unit defines each name once. -/
theorem Sound.eq_of_name?_eq {program : Program} {unit : CompiledUnit} (sound : unit.Sound program)
    {first second : TypeId} (isFirst : first ∈ unit.definitions) (isSecond : second ∈ unit.definitions)
    (same : (program.types.node first).name? = (program.types.node second).name?) :
    first = second := by
  obtain ⟨name, visible⟩ := sound.definitions first isFirst
  obtain ⟨other, visibleToo⟩ := sound.definitions second isSecond
  have denotes := (sound.table _ (mem_table_of_visibleType? visible)).2
  have denotesToo := (sound.table _ (mem_table_of_visibleType? visibleToo)).2
  obtain rfl : name = other :=
    Option.some.inj (denotes.2.symm.trans (same.trans denotesToo.2))
  exact Option.some.inj (visible.symm.trans visibleToo)

end CompiledUnit

/-- Whether a type is an interface, and a callback, does not change. -/
theorem TypeArena.Extends.isCallback_eq {before after : TypeArena} (grown : before.Extends after)
    {id : TypeId} (inside : id < before.size) :
    (after.interface? id).any InterfaceType.isCallback =
      (before.interface? id).any InterfaceType.isCallback := by
  have same := grown.outline_eq id inside
  unfold interface?
  cases old : before.node id <;> cases new : after.node id <;>
    simp_all [TypeNode.outline, InterfaceType.isCallback]

theorem TypeArena.Extends.unitKind_eq {before after : TypeArena} (grown : before.Extends after)
    {unit : CompiledUnit} (inside : ∀ id, unit.interface = some id → id < before.size) :
    Parse.unitKind after unit = Parse.unitKind before unit := by
  unfold Parse.unitKind
  cases declared : unit.interface with
  | none => rfl
  | some id => simp only [grown.isCallback_eq (inside id declared)]

namespace CompiledUnit

variable {before after : Program} {unit : CompiledUnit}

theorem Shadowed.extend (shadowed : unit.Shadowed before) (grown : before.Extends after) :
    unit.Shadowed after := by
  obtain ⟨name, id, imported, listed, present, kind, type, defined, denotes⟩ := shadowed
  have inside : type < before.types.size := by
    apply Parse.lt_size_of_namedKey?
    exact Parse.namedKey?_eq_some.mpr ⟨_, _, rfl, denotes⟩
  exact ⟨name, id, imported, listed, grown.getElem?_eq present, kind, type, defined,
    denotes.congr (grown.types.outline_eq type inside)⟩

theorem Shape.extend (shape : unit.Shape before) (grown : before.Extends after) :
    unit.Shape after := by
  cases shape with
  | sequenceable id kind noInterface definitions inside node =>
      refine .sequenceable id kind noInterface definitions
        (Nat.lt_of_lt_of_le inside grown.types.size_le) ?_
      have same := grown.types.outline_eq id inside
      rw [node] at same
      cases found : after.types.node id <;> simp_all [TypeNode.outline]
  | types kind noInterface definitions declared =>
      refine .types kind noInterface definitions fun id listed => ?_
      obtain ⟨found, isDeclared, notInterface⟩ := declared id listed
      exact ⟨found, grown.types.declaration?_eq isDeclared, notInterface⟩
  | interface id kind isInterface definitions inside denotes declared =>
      refine .interface id ?_ isInterface definitions
        (Nat.lt_of_lt_of_le inside grown.types.size_le)
        (denotes.congr (grown.types.outline_eq id inside)) ?_
      · rw [kind, grown.types.unitKind_eq]
        intro other isOther
        rw [isInterface] at isOther
        exact Option.some.inj isOther ▸ inside
      · exact declared.imp grown.types.declaration?_eq fun shadowed => shadowed.extend grown

theorem Sound.extend (sound : unit.Sound before) (grown : before.Extends after)
    (wellFormed : before.namespaces.WellFormed) : unit.Sound after where
  table := sound.table.extend grown.types
  package_inside := Nat.lt_of_lt_of_le sound.package_inside grown.namespaces.size_le
  package_name := by
    rw [grown.namespaces.fullName_eq wellFormed sound.package_inside, sound.package_name]
  imports entry listed := grown.find?_eq (sound.imports entry listed)
  definitions := sound.definitions
  shape := sound.shape.extend grown

end CompiledUnit

/-- What holds of every program that files are parsed into. -/
structure Program.WellFormed (program : Program) : Prop where
  types : program.types.Sound
  namespaces : program.namespaces.WellFormed
  units : ∀ unit ∈ program.units, unit.Sound program

theorem Program.WellFormed.initial : WellFormed {} where
  types := .initial
  namespaces := .initial
  units := by simp

end DriverIdl
