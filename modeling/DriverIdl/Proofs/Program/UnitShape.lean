import DriverIdl.Proofs.Program.Reachable

/-!
# What a unit holds

A unit that is not a sequenceable holds types, or an interface of its own name.  Reading an
interface does not ask whether its name is new, as reading a type does: if an imported unit of types
defines a type of that namespace and name, the unit holds this type in the place of its interface.
There is no other way in which a unit can lack what it should hold.
-/

namespace DriverIdl

namespace CompiledUnit

/-- The unit defines types and has no interface. -/
def HoldsTypes (unit : CompiledUnit) : Prop :=
  unit.kind = .types ∧ unit.interface = none ∧ unit.definitions ≠ []

/-- The unit defines no types and has an interface of its own name and namespace, which is a
callback exactly if the unit is of that kind. -/
def HoldsInterface (program : Program) (unit : CompiledUnit) : Prop :=
  (unit.kind = .interface ∨ unit.kind = .callback) ∧ unit.definitions = [] ∧
    ∃ id declared, unit.interface = some id ∧ program.types.node id = .interface declared ∧
      declared.name = unit.name ∧ declared.namespaceId = unit.namespaceId ∧
      (declared.isCallback = true ↔ unit.kind = .callback)

theorem exists_interface_of_declaration? {node : TypeNode} {name : String}
    (declared : node.declaration? = some (.interface, name)) :
    ∃ interface, node = .interface interface ∧ interface.name = name := by
  cases node <;> simp_all [TypeNode.declaration?]

theorem unitKind_eq {arena : TypeArena} {unit : CompiledUnit} {id : TypeId}
    (isInterface : unit.interface = some id) :
    Parse.unitKind arena unit =
      if (arena.interface? id).any InterfaceType.isCallback then .callback else .interface := by
  rw [Parse.unitKind, isInterface]

/-- An interface of the unit's own name makes it an interface unit of the right kind. -/
theorem holdsInterface_of_declared {program : Program} {unit : CompiledUnit} {id : TypeId}
    (kind : unit.kind = Parse.unitKind program.types unit) (isInterface : unit.interface = some id)
    (definitions : unit.definitions = []) (denotes : unit.ownKey.Denotes (program.types.node id))
    (declared : (program.types.node id).declaration? = some (.interface, unit.name)) :
    unit.HoldsInterface program := by
  obtain ⟨interface, node, named⟩ := exists_interface_of_declaration? declared
  have isNamespace : interface.namespaceId = unit.namespaceId := by
    rw [node] at denotes
    exact Option.some.inj denotes.1
  rw [unitKind_eq isInterface, TypeArena.interface?, node] at kind
  refine ⟨?_, definitions, id, interface, isInterface, node, named, isNamespace, ?_⟩
  · rw [kind]
    split <;> simp
  · rw [kind]
    cases callback : interface.isCallback <;> simp [callback]

end CompiledUnit

namespace Program

/-- Every unit but a sequenceable holds types or an interface, unless a type that it imports has
taken the place of its interface. -/
theorem unit_shape {program : Program} (reachable : program.Reachable) {unit : CompiledUnit}
    (listed : unit ∈ program.units) (notSequenceable : unit.kind ≠ .sequenceable) :
    unit.HoldsTypes ∨ unit.HoldsInterface program ∨
      unit.Shadowed program ∧ (unit.kind = .interface ∨ unit.kind = .callback) ∧
        unit.definitions = [] ∧
        ∃ id, unit.interface = some id ∧ unit.ownKey.Denotes (program.types.node id) := by
  cases (reachable.wellFormed.units unit listed).shape with
  | sequenceable id kind => exact absurd kind notSequenceable
  | types kind noInterface definitions declared => exact .inl ⟨kind, noInterface, definitions⟩
  | interface id kind isInterface definitions inside denotes declared =>
      rcases declared with declared | shadowed
      · exact .inr (.inl (CompiledUnit.holdsInterface_of_declared kind isInterface definitions denotes
          declared))
      · refine .inr (.inr ⟨shadowed, ?_, definitions, id, isInterface, denotes⟩)
        rw [kind, CompiledUnit.unitKind_eq isInterface]
        split <;> simp

/-- A file that defines a struct with the name of an interface. -/
def shadowingSource : String := "package a.v1_0; struct IFoo \x7b int x; \x7d;"

/-- A file that imports the struct and declares the interface. -/
def shadowedSource : String :=
  "package a.v1_0; import a.v1_0.Types; interface IFoo \x7b Get([out] int v); \x7d"

/-- The program of both files. -/
def shadowedProgram : Program :=
  ((({} : Program).parseSource {} [] ⟨"a/v1_0/Types.idl"⟩ shadowingSource).program.parseSource {} []
    ⟨"a/v1_0/IFoo.idl"⟩ shadowedSource).program

theorem reachable_shadowedProgram : shadowedProgram.Reachable :=
  .parse {} [] ⟨"a/v1_0/IFoo.idl"⟩ shadowedSource
    (.parse {} [] ⟨"a/v1_0/Types.idl"⟩ shadowingSource .empty)

theorem shadowedProgram_kinds :
    (shadowedProgram.units[1]?).map (fun unit => (unit.kind, unit.interface)) =
        some (.interface, some Primitive.all.length) ∧
      shadowedProgram.types.interface? Primitive.all.length = none := by
  decide +kernel

/-- The unit of the interface holds the struct. -/
theorem exists_shadowed_unit : ∃ unit ∈ shadowedProgram.units, unit.kind = .interface ∧
    ¬unit.HoldsTypes ∧ ¬unit.HoldsInterface shadowedProgram := by
  obtain ⟨kinds, noInterface⟩ := shadowedProgram_kinds
  obtain ⟨unit, present, isUnit⟩ := Option.map_eq_some_iff.mp kinds
  obtain ⟨kind, isInterface⟩ := Prod.mk.inj isUnit
  refine ⟨unit, Array.mem_of_getElem? present, kind, ?_, ?_⟩
  · rintro ⟨isTypes, -⟩
    rw [kind] at isTypes
    cases isTypes
  · rintro ⟨-, -, id, declared, isId, node, -⟩
    obtain rfl : Primitive.all.length = id := by simpa [isInterface] using isId
    simp [TypeArena.interface?, node] at noInterface

theorem unit_shape_shadowed : ∃ unit ∈ shadowedProgram.units, unit.kind = .interface ∧
    unit.Shadowed shadowedProgram := by
  obtain ⟨unit, listed, kind, notTypes, notInterface⟩ := exists_shadowed_unit
  have shape := unit_shape reachable_shadowedProgram listed (by simp [kind])
  exact ⟨unit, listed, kind, ((shape.resolve_left notTypes).resolve_left notInterface).1⟩

/-- Not every unit holds types or an interface. -/
theorem shadowed_unit_has_no_shape : shadowedProgram.Reachable ∧
    ∃ unit ∈ shadowedProgram.units, unit.kind ≠ .sequenceable ∧
      ¬unit.HoldsTypes ∧ ¬unit.HoldsInterface shadowedProgram := by
  obtain ⟨unit, listed, kind, notTypes, notInterface⟩ := exists_shadowed_unit
  exact ⟨reachable_shadowedProgram, unit, listed, by simp [kind], notTypes, notInterface⟩

end Program

end DriverIdl
