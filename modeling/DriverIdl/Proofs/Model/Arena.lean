import DriverIdl.Model.Containment
import Mathlib.Data.List.Basic

/-!
# Growing arenas

An arena changes in three ways: a type is added behind all others, a struct or union gets its
members, and an interface is marked as imported.  None of them changes what a type is: its kind, its
name and, for a container, its elements.  This outline of a type is what unit tables and the support
check look at.
-/

namespace DriverIdl

namespace TypeNode

/-- What stays of a type while an arena grows: all but the members of a record and the mark of an
interface. -/
def outline : TypeNode → TypeNode
  | .struct record => .struct { record with members := [] }
  | .union record => .union { record with members := [] }
  | .interface declared => .interface { declared with serializable := false }
  | other => other

/-- The types that a type refers to. -/
def parts : TypeNode → List TypeId
  | .struct record | .union record => record.members.map Member.type
  | .array element | .list element | .queue element => [element]
  | .map key value => [key, value]
  | .interface declared =>
    declared.methods.flatMap fun method => method.parameters.map Parameter.type
  | _ => []

/-- The word that declares a type and the name behind it. -/
def declaration? : TypeNode → Option (TokenKind × String)
  | .enum type => some (.enum, type.name)
  | .struct record => some (.struct, record.name)
  | .union record => some (.union, record.name)
  | .interface declared => some (.interface, declared.name)
  | _ => none

/-- The body of a struct or union. -/
def record? : TypeNode → Option RecordType
  | .struct record | .union record => some record
  | _ => none

/-- An interface without its mark. -/
def unmarked? : TypeNode → Option InterfaceType
  | .interface declared => some { declared with serializable := false }
  | _ => none

theorem name?_outline (node : TypeNode) : node.outline.name? = node.name? := by
  cases node <;> rfl

theorem namespaceId?_outline (node : TypeNode) : node.outline.namespaceId? = node.namespaceId? := by
  cases node <;> rfl

theorem isContainer_outline (node : TypeNode) : node.outline.isContainer = node.isContainer := by
  cases node <;> rfl

theorem declaration?_outline (node : TypeNode) : node.outline.declaration? = node.declaration? := by
  cases node <;> rfl

theorem name?_congr {first second : TypeNode} (same : first.outline = second.outline) :
    first.name? = second.name? := by
  rw [← name?_outline first, same, name?_outline]

theorem namespaceId?_congr {first second : TypeNode} (same : first.outline = second.outline) :
    first.namespaceId? = second.namespaceId? := by
  rw [← namespaceId?_outline first, same, namespaceId?_outline]

theorem isContainer_congr {first second : TypeNode} (same : first.outline = second.outline) :
    first.isContainer = second.isContainer := by
  rw [← isContainer_outline first, same, isContainer_outline]

theorem declaration?_congr {first second : TypeNode} (same : first.outline = second.outline) :
    first.declaration? = second.declaration? := by
  rw [← declaration?_outline first, same, declaration?_outline]

theorem unmarked?_congr {first second : TypeNode} (same : first.outline = second.outline) :
    first.unmarked? = second.unmarked? := by
  have ofOutline (node : TypeNode) : node.outline.unmarked? = node.unmarked? := by
    cases node <;> rfl
  rw [← ofOutline first, same, ofOutline]

end TypeNode

namespace TypeArena

variable {arena : TypeArena} {id : TypeId} {type : TypeNode}

theorem node_of_getElem? (found : arena.nodes[id]? = some type) : arena.node id = type := by
  simp [node, found]

theorem lt_size_of_getElem? (found : arena.nodes[id]? = some type) : id < arena.size := by
  obtain ⟨inside, -⟩ := Array.getElem?_eq_some_iff.mp found
  exact inside

theorem getElem?_of_lt_size (inside : id < arena.size) :
    arena.nodes[id]? = some (arena.node id) := by
  have present : arena.nodes[id]? = some arena.nodes[id] := Array.getElem?_eq_getElem inside
  rw [present, node_of_getElem? present]

/-- Outside of the arena stands a type without parts. -/
theorem node_of_size_le (outside : arena.size ≤ id) : arena.node id = .primitive .void := by
  simp [node, Array.getElem?_eq_none outside]

@[simp] theorem size_alloc : (arena.alloc type).2.size = arena.size + 1 := by
  simp [alloc, size]

theorem node_alloc_of_lt (inside : id < arena.size) :
    (arena.alloc type).2.node id = arena.node id := by
  have inside : id < arena.nodes.size := inside
  simp [alloc, node, Array.getElem?_push_lt inside, Array.getElem?_eq_getElem inside]

@[simp] theorem node_alloc_size : (arena.alloc type).2.node arena.size = type := by
  simp [alloc, node, size]

@[simp] theorem size_update (change : TypeNode → TypeNode) :
    (arena.update id change).size = arena.size := by
  simp [update, size]

theorem node_update_self (inside : id < arena.size) (change : TypeNode → TypeNode) :
    (arena.update id change).node id = change (arena.node id) := by
  have inside : id < arena.nodes.size := inside
  simp [update, node, Array.getElem?_modify, Array.getElem?_eq_getElem inside]

theorem node_update_of_ne {other : TypeId} (different : other ≠ id) (change : TypeNode → TypeNode) :
    (arena.update id change).node other = arena.node other := by
  simp [update, node, Array.getElem?_modify, different.symm]

theorem size_truncate {mark : Nat} (primitives : Primitive.all.length ≤ mark)
    (inside : mark ≤ arena.size) : (arena.truncate mark).size = mark := by
  have inside : mark ≤ arena.nodes.size := inside
  simp [truncate, size, Nat.max_eq_left primitives, Nat.min_eq_left inside]

theorem node_truncate {mark : Nat} (primitives : Primitive.all.length ≤ mark)
    (inside : mark ≤ arena.size) (below : id < mark) :
    (arena.truncate mark).node id = arena.node id := by
  have inside : mark ≤ arena.nodes.size := inside
  have idInside : id < arena.nodes.size := Nat.lt_of_lt_of_le below inside
  simp [truncate, node, Nat.max_eq_left primitives, Nat.min_eq_left inside, below, idInside]

theorem record?_eq (arena : TypeArena) (id : TypeId) : arena.record? id = (arena.node id).record? := by
  unfold record? TypeNode.record?
  cases arena.node id <;> rfl

theorem record?_congr {first second : TypeArena}
    (same : (first.node id).record? = (second.node id).record?) :
    first.record? id = second.record? id := by
  rw [record?_eq, same, record?_eq]

theorem record?_of_size_le (outside : arena.size ≤ id) : arena.record? id = none := by
  rw [record?_eq, node_of_size_le outside]
  rfl

theorem record?_alloc_of_ne (different : id ≠ arena.size) :
    (arena.alloc type).2.record? id = arena.record? id := by
  rcases Nat.lt_or_gt_of_ne different with inside | outside
  · exact record?_congr (by rw [node_alloc_of_lt inside])
  · rw [record?_of_size_le (Nat.le_of_lt outside), record?_of_size_le]
    rw [size_alloc]
    exact outside

/-- A new type that is no struct or union leaves all records as they are. -/
theorem record?_alloc (notRecord : type.record? = none) :
    (arena.alloc type).2.record? id = arena.record? id := by
  by_cases isNew : id = arena.size
  · rw [isNew, record?_of_size_le (Nat.le_refl _), record?_eq, node_alloc_size, notRecord]
  · exact record?_alloc_of_ne isNew

theorem record?_update_of_ne {other : TypeId} (different : other ≠ id)
    (change : TypeNode → TypeNode) : (arena.update id change).record? other = arena.record? other :=
  record?_congr (by rw [node_update_of_ne different])

/-- The interface under a number, without its mark. -/
def unmarked? (arena : TypeArena) (id : TypeId) : Option InterfaceType := (arena.node id).unmarked?

theorem unmarked?_eq (arena : TypeArena) (id : TypeId) :
    arena.unmarked? id = (arena.interface? id).map ({ · with serializable := false }) := by
  unfold unmarked? interface?
  cases arena.node id <;> rfl

theorem unmarked?_of_size_le (outside : arena.size ≤ id) : arena.unmarked? id = none := by
  rw [unmarked?, node_of_size_le outside]
  rfl

theorem unmarked?_alloc_of_ne (different : id ≠ arena.size) :
    (arena.alloc type).2.unmarked? id = arena.unmarked? id := by
  rcases Nat.lt_or_gt_of_ne different with inside | outside
  · rw [unmarked?, node_alloc_of_lt inside, unmarked?]
  · rw [unmarked?_of_size_le (Nat.le_of_lt outside), unmarked?_of_size_le]
    rw [size_alloc]
    exact outside

/-- A new type that is no interface leaves all interfaces as they are. -/
theorem unmarked?_alloc (notInterface : type.unmarked? = none) :
    (arena.alloc type).2.unmarked? id = arena.unmarked? id := by
  by_cases isNew : id = arena.size
  · rw [isNew, unmarked?_of_size_le (Nat.le_refl _), unmarked?, node_alloc_size, notInterface]
  · exact unmarked?_alloc_of_ne isNew

/-- Two arenas of one size with the same types are one. -/
theorem ext_node {first second : TypeArena} (sameSize : first.size = second.size)
    (same : ∀ id < first.size, first.node id = second.node id) : first = second := by
  obtain ⟨firstNodes⟩ := first
  obtain ⟨secondNodes⟩ := second
  congr 1
  apply Array.ext sameSize
  intro id inFirst inSecond
  have equal := same id inFirst
  simpa [node, Array.getElem?_eq_getElem inFirst, Array.getElem?_eq_getElem inSecond] using equal

/-- The first arena is what the second one grew from. -/
structure Extends (before after : TypeArena) : Prop where
  size_le : before.size ≤ after.size
  outline_eq : ∀ id < before.size, (after.node id).outline = (before.node id).outline

namespace Extends

variable {before middle after : TypeArena}

theorem refl (arena : TypeArena) : Extends arena arena := ⟨Nat.le_refl _, fun _ _ => rfl⟩

theorem trans (first : Extends before middle) (second : Extends middle after) :
    Extends before after where
  size_le := Nat.le_trans first.size_le second.size_le
  outline_eq id inside :=
    (second.outline_eq id (Nat.lt_of_lt_of_le inside first.size_le)).trans
      (first.outline_eq id inside)

theorem alloc (arena : TypeArena) (type : TypeNode) : Extends arena (arena.alloc type).2 where
  size_le := by rw [size_alloc]; omega
  outline_eq id inside := by rw [node_alloc_of_lt inside]

theorem update (arena : TypeArena) (id : TypeId) {change : TypeNode → TypeNode}
    (keeps : ∀ node, (change node).outline = node.outline) : Extends arena (arena.update id change) where
  size_le := Nat.le_of_eq (size_update change).symm
  outline_eq other inside := by
    by_cases same : other = id
    · subst same
      rw [node_update_self inside, keeps]
    · rw [node_update_of_ne same]

end Extends

/-- An interface stays what it is, but for its mark. -/
theorem Extends.unmarked?_eq {before after : TypeArena} (grown : Extends before after)
    (inside : id < before.size) : after.unmarked? id = before.unmarked? id :=
  TypeNode.unmarked?_congr (grown.outline_eq id inside)

/-- A change in place that keeps outlines leaves all interfaces as they are. -/
theorem unmarked?_update (changed : TypeId) {change : TypeNode → TypeNode}
    (keeps : ∀ node, (change node).outline = node.outline) :
    (arena.update changed change).unmarked? id = arena.unmarked? id := by
  rcases Nat.lt_or_ge id arena.size with inside | outside
  · exact (Extends.update arena changed keeps).unmarked?_eq inside
  · rw [unmarked?_of_size_le outside, unmarked?_of_size_le (by rwa [size_update])]

/-- Types that are declared in the second arena and not in the first are among those. -/
def AddsDeclared (before after : TypeArena) (added : TypeId → Prop) : Prop :=
  ∀ id, (after.node id).declaration? ≠ none → (before.node id).declaration? ≠ none ∨ added id

namespace AddsDeclared

variable {added early late : TypeId → Prop}

theorem refl (arena : TypeArena) : arena.AddsDeclared arena added := fun _ => .inl

theorem trans {before middle after : TypeArena} (first : before.AddsDeclared middle early)
    (second : middle.AddsDeclared after late) (isEarly : ∀ id, early id → added id)
    (isLate : ∀ id, late id → added id) : before.AddsDeclared after added := by
  intro id declared
  rcases second id declared with between | isNew
  · exact (first id between).imp_right (isEarly id)
  · exact .inr (isLate id isNew)

theorem mono {before after : TypeArena} (adds : before.AddsDeclared after early)
    (isEarly : ∀ id, early id → added id) : before.AddsDeclared after added :=
  fun id declared => (adds id declared).imp_right (isEarly id)

theorem alloc (arena : TypeArena) (type : TypeNode) :
    arena.AddsDeclared (arena.alloc type).2 fun id => id = arena.size ∧ type.declaration? ≠ none := by
  intro id declared
  rcases Nat.lt_trichotomy id arena.size with inside | rfl | outside
  · rw [node_alloc_of_lt inside] at declared
    exact .inl declared
  · rw [node_alloc_size] at declared
    exact .inr ⟨rfl, declared⟩
  · rw [node_of_size_le (by rw [size_alloc]; omega)] at declared
    exact absurd rfl declared

theorem update (arena : TypeArena) (changed : TypeId) {change : TypeNode → TypeNode}
    (keeps : ∀ node, (change node).outline = node.outline) :
    arena.AddsDeclared (arena.update changed change) added := by
  intro id declared
  refine .inl ?_
  rcases Nat.lt_or_ge id arena.size with inside | outside
  · rwa [TypeNode.declaration?_congr ((Extends.update arena changed keeps).outline_eq id inside)]
      at declared
  · rw [node_of_size_le (by rwa [size_update])] at declared
    exact absurd rfl declared

end AddsDeclared

/-- A declared type stays what it is. -/
theorem Extends.declaration?_eq {before after : TypeArena} {declared : TokenKind × String}
    (grown : Extends before after) (isDeclared : (before.node id).declaration? = some declared) :
    (after.node id).declaration? = some declared := by
  have inside : id < before.size := by
    by_contra outside
    rw [node_of_size_le (Nat.le_of_not_lt outside)] at isDeclared
    cases isDeclared
  rw [TypeNode.declaration?_congr (grown.outline_eq id inside), isDeclared]

/-- A type that is an enum was the same one before. -/
theorem Extends.enum_eq {before after : TypeArena} {declared : EnumType}
    (grown : Extends before after) (inside : id < before.size)
    (isEnum : after.node id = .enum declared) : before.node id = .enum declared := by
  have same := grown.outline_eq id inside
  rw [isEnum] at same
  cases node : before.node id <;> simp_all [TypeNode.outline]

/-- An enum was there before, or it is one of the declared types that were added. -/
theorem Extends.enum_of_addsDeclared {before after : TypeArena} {declared : EnumType}
    {added : TypeId → Prop} (grown : Extends before after) (adds : before.AddsDeclared after added)
    (isEnum : after.node id = .enum declared) : before.node id = .enum declared ∨ added id := by
  refine (adds id (by simp [isEnum, TypeNode.declaration?])).imp_left fun had => ?_
  have inside : id < before.size := by
    by_contra outside
    rw [node_of_size_le (Nat.le_of_not_lt outside)] at had
    exact had rfl
  exact grown.enum_eq inside isEnum

/-- Primitive types stand under their numbers, types refer to types of the arena, and enums are
stored as integers. -/
structure Sound (arena : TypeArena) : Prop where
  primitives : ∀ primitive : Primitive, arena.nodes[primitive.id]? = some (.primitive primitive)
  parts_lt : ∀ id, ∀ part ∈ (arena.node id).parts, part < arena.size
  enum_integral : ∀ id declared, arena.node id = .enum declared → declared.base.isIntegral = true

namespace Sound

theorem node_primitive (sound : arena.Sound) (primitive : Primitive) :
    arena.node primitive.id = .primitive primitive :=
  node_of_getElem? (sound.primitives primitive)

theorem primitive_lt (sound : arena.Sound) (primitive : Primitive) : primitive.id < arena.size :=
  lt_size_of_getElem? (sound.primitives primitive)

theorem primitives_le (sound : arena.Sound) : Primitive.all.length ≤ arena.size :=
  sound.primitive_lt .void

theorem initial : Sound {} where
  primitives primitive := by cases primitive <;> decide
  parts_lt id part member := by
    rcases Nat.lt_or_ge id Primitive.all.length with inside | outside
    · have noParts : ∀ index < Primitive.all.length,
          (({} : TypeArena).node index).parts = [] := by decide
      rw [noParts id inside] at member
      simp at member
    · rw [node_of_size_le outside] at member
      simp [TypeNode.parts] at member
  enum_integral id declared isEnum := by
    rcases Nat.lt_or_ge id Primitive.all.length with inside | outside
    · have primitive : ∀ index < Primitive.all.length,
          (({} : TypeArena).node index).name? = none := by decide
      have unnamed := primitive id inside
      rw [isEnum] at unnamed
      simp [TypeNode.name?] at unnamed
    · rw [node_of_size_le outside] at isEnum
      simp at isEnum

/-- A new type must refer to types that are there already. -/
theorem alloc (sound : arena.Sound) (parts : ∀ part ∈ type.parts, part < arena.size)
    (integral : ∀ declared, type = .enum declared → declared.base.isIntegral = true) :
    (arena.alloc type).2.Sound where
  primitives primitive := by
    have inside := sound.primitive_lt primitive
    rw [getElem?_of_lt_size (by rw [size_alloc]; exact Nat.lt_succ_of_lt inside),
      node_alloc_of_lt inside, sound.node_primitive]
  parts_lt id part member := by
    rw [size_alloc]
    rcases Nat.lt_trichotomy id arena.size with inside | rfl | outside
    · rw [node_alloc_of_lt inside] at member
      exact Nat.lt_succ_of_lt (sound.parts_lt id part member)
    · rw [node_alloc_size] at member
      exact Nat.lt_succ_of_lt (parts part member)
    · rw [node_of_size_le (by rw [size_alloc]; omega)] at member
      simp [TypeNode.parts] at member
  enum_integral id declared isEnum := by
    rcases Nat.lt_trichotomy id arena.size with inside | rfl | outside
    · rw [node_alloc_of_lt inside] at isEnum
      exact sound.enum_integral id declared isEnum
    · rw [node_alloc_size] at isEnum
      exact integral declared isEnum
    · rw [node_of_size_le (by rw [size_alloc]; omega)] at isEnum
      simp at isEnum

/-- A change in place that keeps outlines must refer to types that are there already. -/
theorem update (sound : arena.Sound) (id : TypeId) {change : TypeNode → TypeNode}
    (keeps : ∀ node, (change node).outline = node.outline)
    (parts : ∀ part ∈ (change (arena.node id)).parts, part < arena.size) :
    (arena.update id change).Sound where
  primitives primitive := by
    have inside := sound.primitive_lt primitive
    have same := (Extends.update arena id keeps).outline_eq primitive.id inside
    rw [sound.node_primitive] at same
    rw [getElem?_of_lt_size (by rwa [size_update])]
    generalize (arena.update id change).node primitive.id = found at same ⊢
    cases found <;> simp_all [TypeNode.outline]
  parts_lt other part member := by
    rw [size_update]
    by_cases same : other = id
    · subst same
      rcases Nat.lt_or_ge other arena.size with inside | outside
      · rw [node_update_self inside] at member
        exact parts part member
      · rw [node_of_size_le (by rwa [size_update])] at member
        simp [TypeNode.parts] at member
    · rw [node_update_of_ne same] at member
      exact sound.parts_lt other part member
  enum_integral other declared isEnum := by
    rcases Nat.lt_or_ge other arena.size with inside | outside
    · have same := (Extends.update arena id keeps).outline_eq other inside
      rw [isEnum] at same
      apply sound.enum_integral other
      generalize arena.node other = found at same ⊢
      cases found <;> simp_all [TypeNode.outline]
    · rw [node_of_size_le (by rwa [size_update])] at isEnum
      simp at isEnum

end Sound

end TypeArena

namespace TypeKey

/-- Whether a key is that of a declared type. -/
def isNamed : TypeKey → Bool
  | .named _ _ => true
  | _ => false

/-- Whether a key is that of a container. -/
def isComposite : TypeKey → Bool
  | .array _ | .list _ | .map _ _ | .queue _ => true
  | _ => false

/-- The type that a key stands for: the composite with those parts, or a declared type with that
namespace and name. -/
def Denotes : TypeKey → TypeNode → Prop
  | .primitive kind, node => node = .primitive kind
  | .array element, node => node = .array element
  | .list element, node => node = .list element
  | .map key value, node => node = .map key value
  | .queue element, node => node = .queue element
  | .named namespaceId name, node =>
    node.namespaceId? = some namespaceId ∧ node.name? = some name

theorem isNamed_of_isComposite {key : TypeKey} (composite : key.isComposite = true) :
    key.isNamed = false := by
  cases key <;> simp_all [isComposite, isNamed]

theorem Denotes.congr {key : TypeKey} {first second : TypeNode} (denotes : key.Denotes first)
    (same : second.outline = first.outline) : key.Denotes second := by
  cases key with
  | named namespaceId name =>
      exact ⟨(TypeNode.namespaceId?_congr same).trans denotes.1,
        (TypeNode.name?_congr same).trans denotes.2⟩
  | _ =>
      cases denotes
      cases second <;> simp_all [TypeNode.outline, Denotes]

end TypeKey

/-- Every entry of a table of visible types stands for a type of the arena with its key. -/
def TableSound (arena : TypeArena) (table : List (TypeKey × TypeId)) : Prop :=
  ∀ entry ∈ table, entry.2 < arena.size ∧ entry.1.Denotes (arena.node entry.2)

namespace TableSound

variable {arena : TypeArena} {table : List (TypeKey × TypeId)}

theorem extend {after : TypeArena} (sound : TableSound arena table)
    (grown : arena.Extends after) : TableSound after table := by
  intro entry listed
  obtain ⟨inside, denotes⟩ := sound entry listed
  exact ⟨Nat.lt_of_lt_of_le inside grown.size_le, denotes.congr (grown.outline_eq _ inside)⟩

theorem append_singleton {key : TypeKey} {id : TypeId} (sound : TableSound arena table)
    (inside : id < arena.size) (denotes : key.Denotes (arena.node id)) :
    TableSound arena (table ++ [(key, id)]) := by
  intro entry listed
  rcases List.mem_append.mp listed with earlier | last
  · exact sound entry earlier
  · obtain rfl := List.mem_singleton.mp last
    exact ⟨inside, denotes⟩

theorem initial (sound : arena.Sound) :
    TableSound arena (Primitive.all.map fun primitive => (.primitive primitive, primitive.id)) := by
  intro entry listed
  obtain ⟨primitive, -, rfl⟩ := List.mem_map.mp listed
  exact ⟨sound.primitive_lt primitive, sound.node_primitive primitive⟩

end TableSound

theorem mem_of_lookup_eq_some {α β : Type} [BEq α] [LawfulBEq α] {entries : List (α × β)} {key : α}
    {value : β} (found : entries.lookup key = some value) : (key, value) ∈ entries := by
  obtain ⟨before, after, rfl, -⟩ := List.lookup_eq_some_iff.mp found
  simp

namespace CompiledUnit

/-- The key of a type with the name of the unit. -/
def ownKey (unit : CompiledUnit) : TypeKey := .named unit.namespaceId unit.name

/-- Whatever is known already hides what is added. -/
theorem lookup_tableWith (table : List (TypeKey × TypeId)) (key asked : TypeKey) (type : TypeId) :
    (tableWith table key type).lookup asked =
      (table.lookup asked).or ([(key, type)].lookup asked) := by
  unfold tableWith
  split
  · rename_i known found
    by_cases same : asked = key
    · rw [same, found, Option.some_or]
    · have apart : (asked == key) = false := by simpa using same
      simp [List.lookup_cons, apart]
  · exact List.lookup_append

theorem mem_table_of_visibleType? {unit : CompiledUnit} {key : TypeKey} {id : TypeId}
    (visible : unit.visibleType? key = some id) : (key, id) ∈ unit.table :=
  mem_of_lookup_eq_some visible

end CompiledUnit

end DriverIdl
