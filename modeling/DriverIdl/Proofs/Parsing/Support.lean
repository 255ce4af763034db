import DriverIdl.Parsing.TypeExpression
import DriverIdl.Proofs.Model.Arena
import Mathlib.Logic.Relation

/-!
# Types that the target language can express

The support check looks at a type expression as a whole.  The parts of a type that were expressions
of their own, members, parameters and the elements of lists, maps and queues, have therefore passed it.
The element of an array has not: the brackets stand behind it in the same expression.
-/

namespace DriverIdl

namespace TypeNode

/-- The parts of a type that were read as type expressions of their own. -/
def checkedParts : TypeNode → List TypeId
  | .array _ => []
  | node => node.parts

theorem mem_parts_of_mem_checkedParts {node : TypeNode} {part : TypeId}
    (listed : part ∈ node.checkedParts) : part ∈ node.parts := by
  cases node with
  | array element => simp [checkedParts] at listed
  | _ => exact listed

end TypeNode

/-- The support check depends on what stays of a type while the arena grows. -/
theorem supportFault?_eq_none_of_outline {options : Options} {before after : TypeArena}
    {type : TypeId} (same : (after.node type).outline = (before.node type).outline)
    (elements : ∀ element,
      before.node type = .array element ∨ before.node type = .list element →
        (after.node element).isContainer = (before.node element).isContainer)
    (supported : supportFault? options before type = none) :
    supportFault? options after type = none := by
  unfold supportFault? at supported ⊢
  generalize before.node type = old at same elements supported
  generalize after.node type = new at same ⊢
  generalize options.language = language at supported ⊢
  match language with
  | none => rfl
  | some .cpp => rfl
  | some .c =>
      cases old <;> cases new <;> simp only [TypeNode.outline, reduceCtorEq] at same <;>
        simp_all
      rename_i kind _
      cases kind <;> exact supported
  | some .java =>
      cases old <;> cases new <;> simp only [TypeNode.outline, reduceCtorEq] at same
      case interface.interface old new =>
        have callback : new.isCallback = old.isCallback := by
          simp_all [InterfaceType.isCallback]
        cases isSet : old.isCallback <;> simp_all
      all_goals simp_all

/-- A type of the arena that may stand where a type expression stands. -/
structure Usable (options : Options) (arena : TypeArena) (type : TypeId) : Prop where
  inside : type < arena.size
  parts_inside : ∀ part ∈ (arena.node type).outline.parts, part < arena.size
  supported : supportFault? options arena type = none

namespace Usable

variable {options : Options} {before after : TypeArena} {type : TypeId}

theorem extend (usable : Usable options before type) (grown : before.Extends after) :
    Usable options after type where
  inside := Nat.lt_of_lt_of_le usable.inside grown.size_le
  parts_inside part listed := by
    rw [grown.outline_eq type usable.inside] at listed
    exact Nat.lt_of_lt_of_le (usable.parts_inside part listed) grown.size_le
  supported :=
    supportFault?_eq_none_of_outline (grown.outline_eq type usable.inside)
      (fun element isElement => by
        have listed : element ∈ (before.node type).outline.parts := by
          rcases isElement with isArray | isList
          · simp [isArray, TypeNode.outline, TypeNode.parts]
          · simp [isList, TypeNode.outline, TypeNode.parts]
        exact TypeNode.isContainer_congr (grown.outline_eq element (usable.parts_inside _ listed)))
      usable.supported

theorem of_sound (sound : before.Sound) (inside : type < before.size)
    (supported : supportFault? options before type = none) : Usable options before type where
  inside := inside
  parts_inside part listed := by
    apply sound.parts_lt type part
    generalize before.node type = node at listed
    cases node <;> simp_all [TypeNode.outline, TypeNode.parts]
  supported := supported

theorem primitive (sound : before.Sound) {kind : Primitive}
    (notDescriptor : kind ≠ .fileDescriptor) :
    Usable options before kind.id := by
  apply of_sound sound (sound.primitive_lt kind)
  simp only [supportFault?, sound.node_primitive]
  split <;> simp [notDescriptor]

end Usable

/-- Something holds of the parts of all types from a number on: types below it may come from files
that were read under other options. -/
def TypeArena.PartsFrom (parts : TypeNode → List TypeId) (holds : TypeArena → TypeId → Prop)
    (mark : Nat) (arena : TypeArena) : Prop :=
  ∀ id, mark ≤ id → ∀ part ∈ parts (arena.node id), holds arena part

/-- Something stays true of a type while the arena grows. -/
def TypeArena.Lasting (holds : TypeArena → TypeId → Prop) : Prop :=
  ∀ before after type, holds before type → before.Extends after → holds after type

theorem Usable.lasting (options : Options) : TypeArena.Lasting (Usable options) :=
  fun _ _ _ => extend

/-- Every part that was read as a type expression of its own has passed the support check. -/
def TypeArena.SupportedFrom (options : Options) : Nat → TypeArena → Prop :=
  PartsFrom TypeNode.checkedParts (Usable options)

def TypeArena.Supported (options : Options) (arena : TypeArena) : Prop :=
  ∀ id, ∀ part ∈ (arena.node id).checkedParts, Usable options arena part

namespace TypeArena

variable {options : Options} {mark : Nat} {arena : TypeArena}

theorem supported_iff_from_zero : arena.Supported options ↔ arena.SupportedFrom options 0 :=
  ⟨fun supported id _ => supported id, fun supported id => supported id (Nat.zero_le id)⟩

theorem Supported.initial : Supported options {} := by
  intro id part listed
  rcases Nat.lt_or_ge id Primitive.all.length with inside | outside
  · have noParts : ∀ index < Primitive.all.length,
        (({} : TypeArena).node index).checkedParts = [] := by decide
    rw [noParts id inside] at listed
    simp at listed
  · rw [node_of_size_le outside] at listed
    cases listed

namespace PartsFrom

variable {parts : TypeNode → List TypeId} {holds : TypeArena → TypeId → Prop}
  (ofVoid : parts (.primitive .void) = [])

include ofVoid

/-- Nothing stands behind the last type. -/
theorem ofSize (arena : TypeArena) : PartsFrom parts holds arena.size arena := by
  intro id outside part listed
  rw [node_of_size_le outside, ofVoid] at listed
  cases listed

variable (lasting : Lasting holds)

include lasting

theorem alloc (earlier : PartsFrom parts holds mark arena) {node : TypeNode}
    (new : ∀ part ∈ parts node, holds arena part) :
    PartsFrom parts holds mark (arena.alloc node).2 := by
  intro id above part listed
  have grown := Extends.alloc arena node
  rcases Nat.lt_trichotomy id arena.size with inside | rfl | outside
  · rw [node_alloc_of_lt inside] at listed
    exact lasting _ _ _ (earlier id above part listed) grown
  · rw [node_alloc_size] at listed
    exact lasting _ _ _ (new part listed) grown
  · rw [node_of_size_le (by rw [size_alloc]; omega), ofVoid] at listed
    cases listed

theorem update (earlier : PartsFrom parts holds mark arena) (id : TypeId)
    {change : TypeNode → TypeNode} (keeps : ∀ node, (change node).outline = node.outline)
    (new : ∀ part ∈ parts (change (arena.node id)),
      part ∈ parts (arena.node id) ∨ holds arena part) :
    PartsFrom parts holds mark (arena.update id change) := by
  intro other above part listed
  have grown := Extends.update arena id keeps
  by_cases same : other = id
  · subst same
    rcases Nat.lt_or_ge other arena.size with inside | outside
    · rw [node_update_self inside] at listed
      rcases new part listed with had | holdsNow
      · exact lasting _ _ _ (earlier other above part had) grown
      · exact lasting _ _ _ holdsNow grown
    · rw [node_of_size_le (by rwa [size_update]), ofVoid] at listed
      cases listed
  · rw [node_update_of_ne same] at listed
    exact lasting _ _ _ (earlier other above part listed) grown

end PartsFrom

end TypeArena

/-- The elements of a container. -/
def TypeNode.elements : TypeNode → List TypeId
  | .array element | .list element | .queue element => [element]
  | .map key value => [key, value]
  | _ => []

/-- All elements but those of an array have passed the support check. -/
theorem TypeNode.mem_checkedParts_of_mem_elements {node : TypeNode} {element : TypeId}
    (listed : element ∈ node.elements) : node = .array element ∨ element ∈ node.checkedParts := by
  cases node <;> simp_all [elements, checkedParts, parts]

theorem TypeNode.elements_outline (node : TypeNode) : node.outline.elements = node.elements := by
  cases node <;> rfl

namespace TypeArena

/-- A container with an element of type `inner`. -/
def HoldsElement (arena : TypeArena) (outer inner : TypeId) : Prop :=
  inner ∈ (arena.node outer).elements

variable {arena : TypeArena} {outer inner : TypeId}

theorem HoldsElement.outer_lt_size (holds : arena.HoldsElement outer inner) : outer < arena.size := by
  by_contra outside
  rw [HoldsElement, node_of_size_le (Nat.le_of_not_lt outside)] at holds
  cases holds

/-- The only element of a container. -/
theorem HoldsElement.single {node : TypeNode}
    (isNode : arena.node outer = node) (elements : node.elements = [inner]) :
    arena.HoldsElement outer inner := by
  simp [HoldsElement, isNode, elements]

/-- The key and the value of a map. -/
theorem HoldsElement.entry {key value : TypeId}
    (isMap : arena.node outer = .map key value) :
    arena.HoldsElement outer key ∧ arena.HoldsElement outer value := by
  simp [HoldsElement, isMap, TypeNode.elements]

/-- What a container holds does not change. -/
theorem Extends.holdsElement_iff {before after : TypeArena} (grown : before.Extends after)
    (inside : outer < before.size) :
    after.HoldsElement outer inner ↔ before.HoldsElement outer inner := by
  rw [HoldsElement, ← TypeNode.elements_outline, grown.outline_eq outer inside,
    TypeNode.elements_outline, HoldsElement]

theorem Extends.holdsElement_path {before after : TypeArena} (grown : before.Extends after)
    (path : Relation.ReflTransGen before.HoldsElement outer inner) :
    Relation.ReflTransGen after.HoldsElement outer inner := by
  have keeps : before.HoldsElement ≤ after.HoldsElement := fun _ _ holds =>
    (grown.holdsElement_iff holds.outer_lt_size).mpr holds
  exact Relation.ReflTransGen.mono keeps outer inner path

/-- A type of the arena that a file can refer to: not `void`, which no text denotes, and one from the
mark on if it holds anything. -/
structure OwnFrom (mark : Nat) (arena : TypeArena) (type : TypeId) : Prop where
  inside : type < arena.size
  ne_void : type ≠ Primitive.void.id
  from_mark : ∀ inner, arena.HoldsElement type inner → mark ≤ type

theorem OwnFrom.extend {mark : Nat} {before after : TypeArena} {type : TypeId}
    (own : before.OwnFrom mark type) (grown : before.Extends after) : after.OwnFrom mark type where
  inside := Nat.lt_of_lt_of_le own.inside grown.size_le
  ne_void := own.ne_void
  from_mark inner holds := own.from_mark inner ((grown.holdsElement_iff own.inside).mp holds)

theorem OwnFrom.lasting (mark : Nat) : Lasting (OwnFrom mark) :=
  fun _ _ _ => extend

theorem OwnFrom.of_elements {mark : Nat} {type : TypeId} (inside : type < arena.size)
    (ne_void : type ≠ Primitive.void.id) (none : (arena.node type).elements = []) :
    arena.OwnFrom mark type where
  inside := inside
  ne_void := ne_void
  from_mark inner holds := by
    rw [HoldsElement, none] at holds
    cases holds

end TypeArena

end DriverIdl
