import DriverIdl.Model.Containment
import DriverIdl.Proofs.Reachability

/-!
# The graph of containment by value

A struct or union contains the types of its members.  Away from cycles a type nests less deep than
every type that contains it, and no type nests deeper than there are types.  So walks along members
that are given one level for each type, and one more, never run out of levels.  Sizes are found by
such a walk.
-/

namespace DriverIdl

open Relation

namespace TypeArena

/-- A struct or union with a member of type `inner`. -/
def Contains (arena : TypeArena) (outer inner : TypeId) : Prop :=
  ∃ record, arena.record? outer = some record ∧ ∃ member ∈ record.members, member.type = inner

/-- No struct or union contains itself by value, directly or through others. -/
def Acyclic (arena : TypeArena) : Prop :=
  ∀ id, ¬TransGen arena.Contains id id

theorem Acyclic.not_reachesCycle {arena : TypeArena} (acyclic : arena.Acyclic) (id : TypeId) :
    ¬ReachesCycle arena.Contains id :=
  fun ⟨vertex, _, cycle⟩ => acyclic vertex cycle

theorem lt_size_of_record? {arena : TypeArena} {id : TypeId} {record : RecordType}
    (found : arena.record? id = some record) : id < arena.size := by
  by_contra outside
  have missing : arena.nodes[id]? = none := Array.getElem?_eq_none (Nat.not_lt.mp outside)
  simp [record?, node, missing] at found

theorem record?_of_struct {arena : TypeArena} {id : TypeId} {record : RecordType}
    (isStruct : arena.node id = .struct record) : arena.record? id = some record := by
  simp only [record?, isStruct]

theorem record?_of_union {arena : TypeArena} {id : TypeId} {record : RecordType}
    (isUnion : arena.node id = .union record) : arena.record? id = some record := by
  simp only [record?, isUnion]

theorem Contains.of_member {arena : TypeArena} {id : TypeId} {record : RecordType}
    (found : arena.record? id = some record) {member : Member} (listed : member ∈ record.members) :
    arena.Contains id member.type :=
  ⟨record, found, member, listed, rfl⟩

theorem Contains.lt_size {arena : TypeArena} {outer inner : TypeId}
    (contains : arena.Contains outer inner) : outer < arena.size := by
  obtain ⟨record, found, _⟩ := contains
  exact lt_size_of_record? found

/-- An arena has no containment cycle if some height drops from every struct and union to the types
of its members. -/
theorem acyclic_of_height {arena : TypeArena} (height : TypeId → Nat)
    (drops : ∀ outer < arena.size, ∀ record ∈ arena.record? outer, ∀ member ∈ record.members,
      height member.type < height outer) :
    arena.Acyclic := by
  have descends : ∀ {outer inner : TypeId}, TransGen arena.Contains outer inner →
      height inner < height outer := by
    intro outer inner path
    induction path with
    | single edge =>
        obtain ⟨record, found, member, listed, rfl⟩ := edge
        exact drops _ (lt_size_of_record? found) record found member listed
    | tail _ edge ih =>
        obtain ⟨record, found, member, listed, rfl⟩ := edge
        exact (drops _ (lt_size_of_record? found) record found member listed).trans ih
  intro id cycle
  exact Nat.lt_irrefl _ (descends cycle)

/-- How many types of the arena can be reached from a type by following members. -/
noncomputable def nesting (arena : TypeArena) (id : TypeId) : Nat :=
  reachCount arena.Contains (Finset.range arena.size) id

theorem nesting_le_size (arena : TypeArena) (id : TypeId) : arena.nesting id ≤ arena.size := by
  calc
    arena.nesting id ≤ (Finset.range arena.size).card := reachCount_le_card _ _ _
    _ = arena.size := Finset.card_range _

theorem nesting_lt_of_contains {arena : TypeArena} {outer inner : TypeId}
    (contains : arena.Contains outer inner) (offCycle : ¬ReachesCycle arena.Contains outer) :
    arena.nesting inner < arena.nesting outer :=
  reachCount_lt_of_edge (Finset.mem_range.mpr contains.lt_size) contains
    fun cycle => offCycle (.of_onCycle cycle)

section Sizes

variable {arena : TypeArena}

theorem foldl_sizes_congr (combine : Nat → Nat → Nat) {first second : TypeId → Option Nat}
    {members : List Member}
    (same : ∀ member ∈ members, first member.type = second member.type) (start : Option Nat) :
    members.foldl (fun total member =>
        match total, first member.type with
        | some sum, some size => some (combine sum size)
        | _, _ => none) start =
      members.foldl (fun total member =>
        match total, second member.type with
        | some sum, some size => some (combine sum size)
        | _, _ => none) start := by
  induction members generalizing start with
  | nil => rfl
  | cons member rest ih =>
      simp only [List.foldl_cons]
      rw [same member (by simp)]
      exact ih (fun other listed => same other (by simp [listed])) _

/-- All members have a size if the sizes were added up. -/
theorem isSome_of_foldl_sizes {combine : Nat → Nat → Nat} {sizes : TypeId → Option Nat}
    {members : List Member} {start : Option Nat} {total : Nat}
    (found : members.foldl (fun total member =>
      match total, sizes member.type with
      | some sum, some size => some (combine sum size)
      | _, _ => none) start = some total) :
    start.isSome ∧ ∀ member ∈ members, (sizes member.type).isSome := by
  induction members generalizing start with
  | nil => simp_all
  | cons member rest ih =>
      rw [List.foldl_cons] at found
      obtain ⟨startSized, others⟩ := ih found
      cases start with
      | none => simp at startSized
      | some sum =>
          cases sized : sizes member.type with
          | none => simp [sized] at startSized
          | some size => exact ⟨rfl, by simpa [sized] using others⟩

/-- The size of a type, given the sizes of the types in it. -/
def sizeRule (arena : TypeArena) (size : TypeId → Option Nat) (id : TypeId) : Option Nat :=
  match arena.node id with
  | .primitive primitive => primitive.fixedSize?
  | .enum type => type.base.fixedSize?
  | .struct record =>
    record.members.foldl (fun total member =>
      match total, size member.type with
      | some sum, some size => some (sum + size)
      | _, _ => none) (some 0)
  | .union record =>
    record.members.foldl (fun largest member =>
      match largest, size member.type with
      | some most, some size => some (max most size)
      | _, _ => none) (some 0)
  | _ => none

theorem fixedSizeWithin_eq_sizeRule (depth : Nat) (id : TypeId) :
    arena.fixedSizeWithin (depth + 1) id = arena.sizeRule (arena.fixedSizeWithin depth) id :=
  rfl

/-- The size of a type only depends on what the type is and on the sizes of its members. -/
theorem sizeRule_congr {other : TypeArena} {first second : TypeId → Option Nat} {id : TypeId}
    (sameNode : other.node id = arena.node id)
    (same : ∀ inner, arena.Contains id inner → first inner = second inner) :
    other.sizeRule first id = arena.sizeRule second id := by
  have members {record : RecordType} (found : arena.record? id = some record) :
      ∀ member ∈ record.members, first member.type = second member.type :=
    fun member listed => same _ (.of_member found listed)
  unfold sizeRule
  rw [sameNode]
  cases node : arena.node id with
  | struct record => exact foldl_sizes_congr (· + ·) (members (record?_of_struct node)) _
  | union record => exact foldl_sizes_congr max (members (record?_of_union node)) _
  | _ => rfl

theorem fixedSizeWithin_succ {depth : Nat} {id : TypeId}
    (offCycle : ¬ReachesCycle arena.Contains id) (enough : arena.nesting id < depth) :
    arena.fixedSizeWithin (depth + 1) id = arena.fixedSizeWithin depth id := by
  induction depth generalizing id with
  | zero => omega
  | succ depth ih =>
      rw [fixedSizeWithin_eq_sizeRule, fixedSizeWithin_eq_sizeRule]
      apply sizeRule_congr rfl
      intro inner contains
      have drops := nesting_lt_of_contains contains offCycle
      exact ih (fun reaches => offCycle (reaches.of_path (.single contains))) (by omega)

/-- The size of a type that reaches no cycle is found at every depth beyond the number of types. -/
theorem fixedSizeWithin_eq_fixedSize? {depth : Nat} {id : TypeId}
    (offCycle : ¬ReachesCycle arena.Contains id) (enough : arena.size < depth) :
    arena.fixedSizeWithin depth id = arena.fixedSize? id := by
  induction depth, enough using Nat.le_induction with
  | base => rfl
  | succ depth enough ih =>
      rw [← ih]
      exact fixedSizeWithin_succ offCycle
        (Nat.lt_of_le_of_lt (arena.nesting_le_size id) enough)

/-- The rule for sizes followed for some levels, with other sizes below them. -/
def sizeDown (arena : TypeArena) (deeper : TypeId → Option Nat) : Nat → TypeId → Option Nat
  | 0 => deeper
  | levels + 1 => arena.sizeRule (arena.sizeDown deeper levels)

theorem sizeDown_eq_fixedSizeWithin (deeper : TypeId → Option Nat) {levels : Nat} {id : TypeId}
    (offCycle : ¬ReachesCycle arena.Contains id) (enough : arena.nesting id < levels) :
    arena.sizeDown deeper levels id = arena.fixedSizeWithin levels id := by
  induction levels generalizing id with
  | zero => omega
  | succ levels ih =>
      rw [sizeDown, fixedSizeWithin_eq_sizeRule]
      apply sizeRule_congr rfl
      intro inner contains
      have drops := nesting_lt_of_contains contains offCycle
      exact ih (fun reaches => offCycle (reaches.of_path (.single contains))) (by omega)

/-- The size of a type that reaches no cycle is found before the levels are used up: whatever stands
below them is not asked. -/
theorem sizeDown_eq_fixedSize? {id : TypeId} (offCycle : ¬ReachesCycle arena.Contains id)
    (deeper : TypeId → Option Nat) :
    arena.sizeDown deeper (arena.size + 1) id = arena.fixedSize? id :=
  sizeDown_eq_fixedSizeWithin deeper offCycle (Nat.lt_succ_of_le (arena.nesting_le_size id))

end Sizes

end TypeArena

end DriverIdl
