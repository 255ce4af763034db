import DriverIdl.Emit.Basic
import DriverIdl.Proofs.Parsing.Support
import Mathlib.Logic.Relation

/-!
# Rendering that succeeds

Whether a type can be rendered depends on the type and on the elements of containers, however deep
they stand; the members of a struct are rendered where the struct is declared.  A type is
expressible if neither it nor any of these elements fails the support check.
-/

namespace DriverIdl

open Relation

/-- Rendering gives a result. -/
def Succeeds {α : Type} (rendering : Emit α) : Prop := ∃ value, rendering = .ok value

namespace Succeeds

variable {α β : Type}

theorem pure (value : α) : Succeeds (Pure.pure value : Emit α) := ⟨value, rfl⟩

theorem bind {first : Emit α} {next : α → Emit β} (succeeds : Succeeds first)
    (continues : ∀ value, Succeeds (next value)) : Succeeds (first >>= next) := by
  obtain ⟨value, rfl⟩ := succeeds
  exact continues value

theorem mapM {items : List α} {render : α → Emit β}
    (each : ∀ item ∈ items, Succeeds (render item)) :
    Succeeds (items.mapM render) := by
  induction items with
  | nil => exact .pure []
  | cons first rest ih =>
      rw [List.mapM_cons]
      refine .bind (each first (by simp)) fun value => ?_
      exact .bind (ih fun item listed => each item (by simp [listed])) fun values => .pure _

theorem forEach {items : List α} {code : α → Emit Code}
    (each : ∀ item ∈ items, Succeeds (code item)) :
    Succeeds (Code.forEach items code) :=
  .bind (.mapM each) fun _ => .pure _

end Succeeds

theorem Emit.bind_eq_ok {α β : Type} {first : Emit α} {next : α → Emit β} {value : β} :
    (first >>= next) = .ok value ↔ ∃ middle, first = .ok middle ∧ next middle = .ok value := by
  cases first <;> simp [Bind.bind, Except.bind]

theorem Emit.ite_bind_eq_ok {α β : Type} {condition : Prop} [Decidable condition]
    {first second : Emit α} {next : α → Emit β} {value : β}
    (rendered : (if condition then first >>= next else second >>= next) = .ok value) :
    ∃ middle, (if condition then first else second) = .ok middle ∧ next middle = .ok value := by
  rw [← apply_ite (· >>= next)] at rendered
  exact bind_eq_ok.mp rendered

/-- The target language has the type and all elements in it. -/
def Expressible (options : Options) (arena : TypeArena) (type : TypeId) : Prop :=
  ∀ inner, ReflTransGen arena.HoldsElement type inner → supportFault? options arena inner = none

namespace Expressible

variable {options : Options} {arena : TypeArena} {type : TypeId}

theorem supported (expressible : Expressible options arena type) :
    supportFault? options arena type = none :=
  expressible type .refl

theorem element (expressible : Expressible options arena type) {element : TypeId}
    (holds : element ∈ (arena.node type).elements) : Expressible options arena element :=
  fun inner path => expressible inner (.head holds path)

/-- A type that passed the support check is expressible if the elements of all arrays in it pass the
check as well. -/
theorem of_usable (supported : arena.Supported options) (usable : Usable options arena type)
    (arrays : ∀ array element, ReflTransGen arena.HoldsElement type array →
      arena.node array = .array element → supportFault? options arena element = none) :
    Expressible options arena type := by
  intro inner path
  induction path with
  | refl => exact usable.supported
  | tail before holds _ =>
      rcases TypeNode.mem_checkedParts_of_mem_elements holds with isArray | checked
      · exact arrays _ _ before isArray
      · exact (supported _ _ checked).supported

end Expressible

namespace EmitContext

variable {context : EmitContext} {interface : InterfaceType}

/-- A unit whose types can be rendered: those of the members of its definitions, and those of the
parameters of its methods. -/
structure Expressible (context : EmitContext) : Prop where
  sound : context.types.Sound
  definitions : ∀ id ∈ context.unit.definitions, ∀ part ∈ (context.types.node id).parts,
    DriverIdl.Expressible context.options context.types part
  parameters : ∀ interface, context.program.interfaceOf? context.unit = some interface →
    ∀ method ∈ interface.methods, ∀ parameter ∈ method.parameters,
      DriverIdl.Expressible context.options context.types parameter.type

theorem interface_succeeds (found : context.program.interfaceOf? context.unit = some interface) :
    Succeeds context.interface := by
  rw [EmitContext.interface, found]
  exact .pure interface

/-- The methods of a build are methods of the interface. -/
theorem methods_eq (found : context.program.interfaceOf? context.unit = some interface) :
    ∃ methods, context.methods = .ok methods ∧
      ∀ method ∈ methods.map Prod.snd, method ∈ interface.methods := by
  refine ⟨_, by rw [methods, EmitContext.interface, found]; rfl, ?_⟩
  intro method listed
  obtain ⟨entry, isVisible, rfl⟩ := List.mem_map.mp listed
  obtain ⟨⟨declared, number⟩, numbered, rfl⟩ := List.mem_map.mp (List.mem_of_mem_filter isVisible)
  exact List.fst_mem_of_mem_zipIdx numbered

/-- A build has methods if its unit has an interface. -/
theorem interfaceOf?_of_methods {methods : List (Nat × Method)} (shown : context.methods = .ok methods) :
    ∃ interface, context.program.interfaceOf? context.unit = some interface ∧
      ∀ method ∈ methods.map Prod.snd, method ∈ interface.methods := by
  cases found : context.program.interfaceOf? context.unit with
  | none =>
      rw [EmitContext.methods, EmitContext.interface, found] at shown
      cases shown
  | some interface =>
      obtain ⟨all, isAll, listed⟩ := methods_eq found
      cases shown.symm.trans isAll
      exact ⟨interface, rfl, listed⟩

/-- A rendering that starts with the methods of the build succeeds if it does for methods of the
interface. -/
theorem methods_bind {β : Type} {next : List (Nat × Method) → Emit β}
    (found : context.program.interfaceOf? context.unit = some interface)
    (continues : ∀ methods : List (Nat × Method),
      (∀ method ∈ methods.map Prod.snd, method ∈ interface.methods) → Succeeds (next methods)) :
    Succeeds (context.methods >>= next) := by
  obtain ⟨methods, isMethods, listed⟩ := methods_eq found
  rw [isMethods]
  exact continues methods listed

theorem mem_customTypes {node : TypeNode} (listed : node ∈ context.customTypes) :
    ∃ id ∈ context.unit.definitions, context.types.node id = node := by
  obtain ⟨isDefined, -⟩ := List.mem_filter.mp listed
  exact List.mem_map.mp isDefined

theorem mem_structs {record : RecordType} (listed : record ∈ context.structs) :
    .struct record ∈ context.customTypes := by
  obtain ⟨node, isCustom, isRecord⟩ := List.mem_filterMap.mp listed
  cases node <;> simp_all

namespace Expressible

theorem customTypes (expressible : context.Expressible) {node : TypeNode}
    (listed : node ∈ context.customTypes) :
    ∀ part ∈ node.parts, DriverIdl.Expressible context.options context.types part := by
  obtain ⟨id, isDefined, rfl⟩ := mem_customTypes listed
  exact expressible.definitions id isDefined

theorem structMembers (expressible : context.Expressible) {record : RecordType}
    (listed : record ∈ context.structs) :
    ∀ member ∈ record.members, DriverIdl.Expressible context.options context.types member.type := by
  intro member isMember
  exact expressible.customTypes (mem_structs listed) member.type (List.mem_map_of_mem isMember)

end Expressible

end EmitContext

end DriverIdl
