import DriverIdl.Parsing.SourceFile
import DriverIdl.Proofs.Containment.Verdict
import DriverIdl.Proofs.Model.Arena

/-!
# Types without their places

A declared type remembers where its name and its members stand in their file.  Only messages show
these places: two arenas that differ in nothing else spell their types alike, give them the same
sizes, and pass and refuse the same types.
-/

namespace DriverIdl

/-- A member that stands nowhere. -/
def EnumMember.unplaced (member : EnumMember) : EnumMember := { member with place := {} }

/-- A member that stands nowhere. -/
def Member.unplaced (member : Member) : Member := { member with place := {} }

/-- The body of a struct or union that stands nowhere. -/
def RecordType.unplaced (record : RecordType) : RecordType :=
  { record with members := record.members.map Member.unplaced, place := {} }

/-- An enum that stands nowhere. -/
def EnumType.unplaced (declared : EnumType) : EnumType :=
  { declared with members := declared.members.map EnumMember.unplaced, place := {} }

namespace TypeNode

/-- A type that stands nowhere.  Interfaces keep their places. -/
def unplaced : TypeNode → TypeNode
  | .enum declared => .enum declared.unplaced
  | .struct record => .struct record.unplaced
  | .union record => .union record.unplaced
  | other => other

theorem name?_unplaced (node : TypeNode) : node.unplaced.name? = node.name? := by
  cases node <;> rfl

theorem namespaceId?_unplaced (node : TypeNode) :
    node.unplaced.namespaceId? = node.namespaceId? := by
  cases node <;> rfl

theorem isContainer_unplaced (node : TypeNode) : node.unplaced.isContainer = node.isContainer := by
  cases node <;> rfl

theorem map_name_unplaced (members : List Member) :
    (members.map Member.unplaced).map Member.name = members.map Member.name := by
  rw [List.map_map]
  rfl

end TypeNode

/-- Members that differ in their places have the same names. -/
theorem Member.names_eq {members others : List Member}
    (same : others.map Member.unplaced = members.map Member.unplaced) :
    others.map Member.name = members.map Member.name := by
  rw [← TypeNode.map_name_unplaced others, same, TypeNode.map_name_unplaced]

theorem EnumMember.names_eq {members others : List EnumMember}
    (same : others.map EnumMember.unplaced = members.map EnumMember.unplaced) :
    others.map EnumMember.name = members.map EnumMember.name := by
  simpa [Function.comp_def, EnumMember.unplaced] using congrArg (List.map EnumMember.name) same

/-- Setting members commutes with forgetting places. -/
theorem Parse.unplaced_setMembers (members : List Member) (node : TypeNode) :
    (setMembers members node).unplaced =
      setMembers (members.map Member.unplaced) node.unplaced := by
  cases node <;> rfl

theorem Parse.unplaced_markSerializable (node : TypeNode) :
    (markSerializable node).unplaced = markSerializable node.unplaced := by
  cases node <;> rfl

namespace TypeArena

/-- The types of an arena, standing nowhere. -/
def unplaced (arena : TypeArena) : TypeArena := ⟨arena.nodes.map TypeNode.unplaced⟩

variable (arena : TypeArena)

@[simp] theorem size_unplaced : arena.unplaced.size = arena.size := by
  simp [unplaced, size]

@[simp] theorem node_unplaced (id : TypeId) :
    arena.unplaced.node id = (arena.node id).unplaced := by
  simp only [unplaced, node, Array.getElem?_map]
  cases arena.nodes[id]? <;> rfl

theorem unplaced_alloc (node : TypeNode) :
    (arena.alloc node).2.unplaced = (arena.unplaced.alloc node.unplaced).2 := by
  simp [unplaced, alloc]

/-- A change that commutes with forgetting places does so in an arena. -/
theorem unplaced_update (id : TypeId) {change others : TypeNode → TypeNode}
    (commutes : ∀ node, (change node).unplaced = others node.unplaced) :
    (arena.update id change).unplaced = arena.unplaced.update id others := by
  apply ext_node
  · simp
  · intro other listed
    have inside : other < arena.size := by simpa using listed
    by_cases same : other = id
    · subst same
      rw [node_unplaced, node_update_self inside change,
        node_update_self (by simpa using inside) others, commutes, node_unplaced]
    · rw [node_unplaced, node_update_of_ne same, node_update_of_ne same, node_unplaced]

theorem spellWithin_unplaced (depth : Nat) (id : TypeId) :
    arena.unplaced.spellWithin depth id = arena.spellWithin depth id := by
  induction depth generalizing id with
  | zero => rfl
  | succ depth ih =>
      rw [spellWithin, spellWithin, node_unplaced]
      cases arena.node id <;> simp only [TypeNode.unplaced, ih] <;> rfl

@[simp] theorem spelling_unplaced (id : TypeId) :
    arena.unplaced.spelling id = arena.spelling id := by
  rw [spelling, spelling, size_unplaced, spellWithin_unplaced]

theorem fixedSizeWithin_unplaced (depth : Nat) (id : TypeId) :
    arena.unplaced.fixedSizeWithin depth id = arena.fixedSizeWithin depth id := by
  induction depth generalizing id with
  | zero => rfl
  | succ depth ih =>
      rw [fixedSizeWithin, fixedSizeWithin, node_unplaced]
      cases arena.node id <;>
        simp only [TypeNode.unplaced, RecordType.unplaced, EnumType.unplaced, List.foldl_map, ih,
          Member.unplaced]

@[simp] theorem fixedSize?_unplaced (id : TypeId) :
    arena.unplaced.fixedSize? id = arena.fixedSize? id := by
  rw [fixedSize?, fixedSize?, size_unplaced, fixedSizeWithin_unplaced]

@[simp] theorem interface?_unplaced (id : TypeId) :
    arena.unplaced.interface? id = arena.interface? id := by
  rw [interface?, interface?, node_unplaced]
  cases arena.node id <;> rfl

theorem primitive?_eq_some {arena : TypeArena} {id : TypeId} {kind : Primitive} :
    arena.primitive? id = some kind ↔ arena.node id = .primitive kind := by
  rw [primitive?]
  cases arena.node id <;> simp

@[simp] theorem primitive?_unplaced (id : TypeId) :
    arena.unplaced.primitive? id = arena.primitive? id := by
  rw [primitive?, primitive?, node_unplaced]
  cases arena.node id <;> rfl

@[simp] theorem namedKey?_unplaced (id : TypeId) :
    Parse.namedKey? arena.unplaced id = Parse.namedKey? arena id := by
  simp only [Parse.namedKey?, node_unplaced, TypeNode.name?_unplaced,
    TypeNode.namespaceId?_unplaced]

@[simp] theorem supportFault?_unplaced (options : Options) (id : TypeId) :
    supportFault? options arena.unplaced id = supportFault? options arena id := by
  unfold supportFault?
  cases options.language with
  | none => rfl
  | some language =>
      simp only [node_unplaced, TypeNode.isContainer_unplaced, spelling_unplaced]
      cases language <;> cases arena.node id <;> rfl

theorem record?_unplaced (id : TypeId) :
    arena.unplaced.record? id = (arena.record? id).map RecordType.unplaced := by
  rw [record?, record?, node_unplaced]
  cases arena.node id <;> rfl

theorem contains_unplaced (outer inner : TypeId) :
    arena.unplaced.Contains outer inner ↔ arena.Contains outer inner := by
  simp only [Contains, record?_unplaced, Option.map_eq_some_iff]
  constructor
  · rintro ⟨_, ⟨record, found, rfl⟩, holds⟩
    exact ⟨record, found, by simpa [RecordType.unplaced, Member.unplaced] using holds⟩
  · rintro ⟨record, found, holds⟩
    exact ⟨_, ⟨record, found, rfl⟩, by simpa [RecordType.unplaced, Member.unplaced] using holds⟩

end TypeArena

namespace Containment

/-- Whether the declarations of a unit are at fault does not depend on where they stand. -/
theorem faults_unplaced_eq_nil_iff (arena : TypeArena) (definitions : List TypeId) :
    faults arena.unplaced definitions = [] ↔ faults arena definitions = [] := by
  have contains : arena.unplaced.Contains = arena.Contains := by
    funext outer inner
    exact propext (arena.contains_unplaced outer inner)
  rw [faults_eq_nil_iff, faults_eq_nil_iff, nestingFaults_eq_nil_iff, nestingFaults_eq_nil_iff,
    unionFaults_eq_nil_iff, unionFaults_eq_nil_iff, contains]
  refine and_congr_right fun _ => forall₂_congr fun root _ => ?_
  rw [TypeArena.node_unplaced]
  cases arena.node root <;>
    simp [TypeNode.unplaced, RecordType.unplaced, Member.unplaced]

theorem verify_eq_nil_of_unplaced {arena other : TypeArena} {unit second : CompiledUnit}
    (types : other.unplaced = arena.unplaced) (definitions : second.definitions = unit.definitions)
    (sound : verify arena unit = []) : verify other second = [] := by
  rw [verify, List.map_eq_nil_iff] at sound ⊢
  rwa [definitions, ← faults_unplaced_eq_nil_iff, types, faults_unplaced_eq_nil_iff]

end Containment

end DriverIdl
