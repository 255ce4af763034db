import DriverIdl.Parsing.SourceFile
import DriverIdl.Proofs.Containment.Graph
import DriverIdl.Proofs.Parsing.Names
import DriverIdl.Proofs.Parsing.Support

/-!
# How an arena is built

A file without errors changes the arena step by step: it adds a type, it gives a struct or union the
members that were read, or it marks an interface.  `Change` says what holds when such a step is
taken, and `Builds` that steps lead from one arena to another.  What holds of all types that a file
leaves behind follows from what each step keeps.
-/

namespace DriverIdl

open Relation

/-- The names that a declared type brings: its own, and those of members, methods and parameters. -/
def TypeNode.names : TypeNode → List String
  | .enum type => [type.name]
  | .struct record | .union record => record.name :: record.members.map Member.name
  | .interface declared =>
    declared.name :: declared.methods.flatMap fun method =>
      method.name :: method.parameters.map Parameter.name
  | .sequenceable type => [type.name]
  | _ => []

namespace Parse

section SetMembers

variable {members : List Member} {node : TypeNode}

theorem setMembers_outline (members : List Member) (node : TypeNode) :
    (setMembers members node).outline = node.outline := by
  cases node <;> rfl

/-- The parts of a type with other members are these members, or those it had. -/
theorem mem_parts_setMembers {part : TypeId} (listed : part ∈ (setMembers members node).parts) :
    (∃ member ∈ members, member.type = part) ∨ part ∈ node.parts := by
  cases node with
  | struct record => exact .inl (List.mem_map.mp listed)
  | union record => exact .inl (List.mem_map.mp listed)
  | _ => exact .inr listed

theorem mem_checkedParts_setMembers {part : TypeId}
    (listed : part ∈ (setMembers members node).checkedParts) :
    (∃ member ∈ members, member.type = part) ∨ part ∈ node.checkedParts := by
  cases node with
  | struct record => exact .inl (List.mem_map.mp listed)
  | union record => exact .inl (List.mem_map.mp listed)
  | _ => exact .inr listed

theorem mem_names_setMembers {name : String} (listed : name ∈ (setMembers members node).names) :
    (∃ member ∈ members, member.name = name) ∨ name ∈ node.names := by
  cases node with
  | struct record | union record =>
      rcases List.mem_cons.mp listed with isOwn | isMember
      · exact .inr (isOwn ▸ List.mem_cons_self)
      · exact .inl (List.mem_map.mp isMember)
  | _ => exact .inr listed

/-- The record has the members that it was given. -/
theorem members_of_setMembers {record : RecordType}
    (found : (setMembers members node).record? = some record) : record.members = members := by
  cases node <;> simp_all [setMembers, TypeNode.record?]
  all_goals rw [← found]

end SetMembers

section MarkSerializable

theorem markSerializable_outline (node : TypeNode) :
    (markSerializable node).outline = node.outline := by
  cases node <;> rfl

theorem markSerializable_parts (node : TypeNode) : (markSerializable node).parts = node.parts := by
  cases node <;> rfl

theorem markSerializable_checkedParts (node : TypeNode) :
    (markSerializable node).checkedParts = node.checkedParts := by
  cases node <;> rfl

theorem markSerializable_names (node : TypeNode) : (markSerializable node).names = node.names := by
  cases node <;> rfl

theorem record?_markSerializable (node : TypeNode) :
    (markSerializable node).record? = node.record? := by
  cases node <;> rfl

end MarkSerializable

end Parse

namespace TypeArena

variable {options : Options} {mark : Nat} {arena before after : TypeArena}

/-- A type that a file may add.  It is no primitive one.  The element of a queue was plain data when it
was read, a container holds no interface, and a struct or union has no members yet. -/
structure Addable (options : Options) (mark : Nat) (arena : TypeArena) (node : TypeNode) :
    Prop where
  made : ∀ primitive, node ≠ .primitive primitive
  own : ∀ part ∈ node.parts, arena.OwnFrom mark part
  integral : ∀ declared, node = .enum declared → declared.base.isIntegral = true
  usable : ∀ part ∈ node.checkedParts, Usable options arena part
  elements : ∀ element ∈ node.elements, arena.interface? element = none
  plain : ∀ element, node = .queue element → (arena.fixedSize? element).isSome
  unfilled : ∀ record, node.record? = some record → record.members = []
  words : ∀ name ∈ node.names, Text.IsWord name

/-- Members that a struct or union may get.  It has none yet and no type contains it, but its members
may hold it in containers: all types that do stand in one of them. -/
structure Fillable (options : Options) (mark : Nat) (arena : TypeArena) (id : TypeId)
    (members : List Member) : Prop where
  unfilled : ∃ record, arena.record? id = some record ∧ record.members = []
  uncontained : ∀ outer, ¬arena.Contains outer id
  held : ∀ outer, arena.HoldsElement outer id →
    ∃ member ∈ members, ReflTransGen arena.HoldsElement member.type outer
  own : ∀ member ∈ members, arena.OwnFrom mark member.type
  usable : ∀ member ∈ members, Usable options arena member.type
  words : ∀ member ∈ members, Text.IsWord member.name

/-- A type refers to its elements. -/
theorem HoldsElement.mem_parts {outer inner : TypeId} (holds : arena.HoldsElement outer inner) :
    inner ∈ (arena.node outer).parts := by
  unfold HoldsElement at holds
  generalize arena.node outer = node at holds ⊢
  cases node <;> simp_all [TypeNode.elements, TypeNode.parts]

/-- A type refers to its members. -/
theorem Contains.mem_parts {outer inner : TypeId} (contains : arena.Contains outer inner) :
    inner ∈ (arena.node outer).parts := by
  obtain ⟨record, found, member, listed, rfl⟩ := contains
  rw [record?_eq] at found
  cases node : arena.node outer <;> simp_all [TypeNode.record?, TypeNode.parts]
  all_goals exact ⟨member, listed, rfl⟩

/-- No type refers to one that was just added. -/
theorem Sound.fillable_alloc (sound : arena.Sound) {node : TypeNode} {record : RecordType}
    (isRecord : node.record? = some record) (empty : record.members = []) :
    (arena.alloc node).2.Fillable options mark arena.size [] := by
  have noParts : node.parts = [] := by
    cases node <;> simp_all [TypeNode.record?, TypeNode.parts]
  have unreferred : ∀ outer, arena.size ∉ ((arena.alloc node).2.node outer).parts := by
    intro outer listed
    rcases Nat.lt_trichotomy outer arena.size with inside | rfl | outside
    · rw [node_alloc_of_lt inside] at listed
      exact absurd (sound.parts_lt outer _ listed) (Nat.lt_irrefl _)
    · rw [node_alloc_size, noParts] at listed
      cases listed
    · rw [node_of_size_le (by rw [size_alloc]; omega)] at listed
      cases listed
  exact
    { unfilled := ⟨record, by rw [record?_eq, node_alloc_size, isRecord], empty⟩
      uncontained := fun outer contains => unreferred outer contains.mem_parts
      held := fun outer holds => absurd holds.mem_parts (unreferred outer)
      own := by simp
      usable := by simp
      words := by simp }

/-- One change of an arena by a file without errors. -/
inductive Change (options : Options) (mark : Nat) : TypeArena → TypeArena → Prop where
  | add {arena : TypeArena} {node : TypeNode} (addable : Addable options mark arena node) :
      Change options mark arena (arena.alloc node).2
  | fill {arena : TypeArena} {id : TypeId} {members : List Member}
      (fillable : Fillable options mark arena id members) :
      Change options mark arena (arena.update id (Parse.setMembers members))
  | mark (arena : TypeArena) (id : TypeId) :
      Change options mark arena (arena.update id Parse.markSerializable)

/-- Changes lead from one arena to another. -/
abbrev Builds (options : Options) (mark : Nat) : TypeArena → TypeArena → Prop :=
  ReflTransGen (Change options mark)

namespace Change

theorem sound (change : Change options mark before after) (sound : before.Sound) : after.Sound := by
  cases change with
  | add addable =>
      exact sound.alloc (fun part listed => (addable.own part listed).inside) addable.integral
  | @fill id members fillable =>
      apply sound.update id (Parse.setMembers_outline members)
      intro part listed
      rcases Parse.mem_parts_setMembers listed with ⟨member, isMember, rfl⟩ | had
      · exact (fillable.usable member isMember).inside
      · exact sound.parts_lt id part had
  | mark id =>
      apply sound.update id Parse.markSerializable_outline
      intro part listed
      rw [Parse.markSerializable_parts] at listed
      exact sound.parts_lt id part listed

theorem grown (change : Change options mark before after) : before.Extends after := by
  cases change with
  | add _ => exact .alloc _ _
  | fill _ => exact .update _ _ (Parse.setMembers_outline _)
  | mark id => exact .update _ _ Parse.markSerializable_outline

theorem supportedFrom {first : Nat} (change : Change options mark before after)
    (supported : before.SupportedFrom options first) : after.SupportedFrom options first := by
  cases change with
  | add addable => exact PartsFrom.alloc rfl (Usable.lasting options) supported addable.usable
  | @fill id members fillable =>
      apply PartsFrom.update rfl (Usable.lasting options) supported id
        (Parse.setMembers_outline members)
      intro part listed
      rcases Parse.mem_checkedParts_setMembers listed with ⟨member, isMember, rfl⟩ | had
      · exact .inr (fillable.usable member isMember)
      · exact .inl had
  | mark id =>
      apply PartsFrom.update rfl (Usable.lasting options) supported id
        Parse.markSerializable_outline
      intro part listed
      rw [Parse.markSerializable_checkedParts] at listed
      exact .inl listed

/-- Containers that types from the mark on refer to come from the mark on. -/
theorem ownFrom {first : Nat} (change : Change options mark before after)
    (own : PartsFrom TypeNode.parts (OwnFrom mark) first before) :
    PartsFrom TypeNode.parts (OwnFrom mark) first after := by
  cases change with
  | add addable => exact PartsFrom.alloc rfl (OwnFrom.lasting mark) own addable.own
  | @fill id members fillable =>
      apply PartsFrom.update rfl (OwnFrom.lasting mark) own id (Parse.setMembers_outline members)
      intro part listed
      rcases Parse.mem_parts_setMembers listed with ⟨member, isMember, rfl⟩ | had
      · exact .inr (fillable.own member isMember)
      · exact .inl had
  | mark id =>
      apply PartsFrom.update rfl (OwnFrom.lasting mark) own id Parse.markSerializable_outline
      intro part listed
      rw [Parse.markSerializable_parts] at listed
      exact .inl listed

end Change

namespace Builds

theorem sound (builds : Builds options mark before after) (sound : before.Sound) : after.Sound := by
  induction builds with
  | refl => exact sound
  | tail _ change ih => exact change.sound ih

theorem supportedFrom {first : Nat} (builds : Builds options mark before after)
    (supported : before.SupportedFrom options first) : after.SupportedFrom options first := by
  induction builds with
  | refl => exact supported
  | tail _ change ih => exact change.supportedFrom ih

theorem supported (builds : Builds options mark before after) (supported : before.Supported options) :
    after.Supported options :=
  supported_iff_from_zero.mpr (builds.supportedFrom (supported_iff_from_zero.mp supported))

theorem ownFrom {first : Nat} (builds : Builds options mark before after)
    (own : PartsFrom TypeNode.parts (OwnFrom mark) first before) :
    PartsFrom TypeNode.parts (OwnFrom mark) first after := by
  induction builds with
  | refl => exact own
  | tail _ change ih => exact change.ownFrom ih

end Builds

end TypeArena

end DriverIdl
