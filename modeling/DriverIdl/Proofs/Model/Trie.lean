import DriverIdl.Proofs.Model.Namespace
import Mathlib.Data.List.Count
import Mathlib.Data.List.Infix

/-!
# Namespaces as a trie

A tree that grew from the first one by looking packages up is a trie over their segments: the names
from the root down to a node tell the node, siblings have different names, and a list of names leads to
a node exactly if it is the start of a package that was looked up.  `NamespaceTree.Trie` is what every
new node keeps; `interned_packages_form_trie` is what any run of look-ups leaves behind.
-/

namespace DriverIdl

namespace NamespaceTree

/-- The walk from a node up to the root, and the names on the way. -/
inductive Climbs (tree : NamespaceTree) : NamespaceId → List String → Prop where
  | top {id : NamespaceId} (isTop : (tree.node id).parent = none) : Climbs tree id []
  | up {id parent : NamespaceId} {names : List String}
      (isParent : (tree.node id).parent = some parent) (rest : Climbs tree parent names) :
      Climbs tree id ((tree.node id).name :: names)

/-- A node of the tree has these names from the root down to it. -/
def Leads (tree : NamespaceTree) (names : List String) (id : NamespaceId) : Prop :=
  id < tree.nodes.size ∧ tree.segments id = names

section Nodes

variable {tree : NamespaceTree} {id : NamespaceId} {names : List String}

theorem WellFormed.climbs (wellFormed : tree.WellFormed) (id : NamespaceId) :
    tree.Climbs id (tree.segments id).reverse := by
  induction id using Nat.strongRecOn with
  | ind id ih =>
      cases isParent : (tree.node id).parent with
      | none =>
          have nothing : tree.segments id = [] := by simp [segments, namesUp, isParent]
          rw [nothing]
          exact .top isParent
      | some parent =>
          rw [segments_of_parent wellFormed isParent, List.reverse_append]
          exact .up isParent (ih parent (wellFormed.parent_lt id parent isParent))

namespace Trie

variable (trie : tree.Trie)

include trie

/-- The names of a node other than the root are those of its parent and its own. -/
theorem segments_of_ne_root (inside : id < tree.nodes.size) (notRoot : id ≠ root) :
    ∃ parent, parent < id ∧ id ∈ (tree.node parent).children ∧
      tree.segments id = tree.segments parent ++ [(tree.node id).name] := by
  obtain ⟨parent, isParent, once⟩ := trie.listed_once id inside notRoot
  refine ⟨parent, trie.parent_lt id parent isParent, ?_, segments_of_parent trie.toWellFormed isParent⟩
  exact List.count_pos_iff.mp (by omega)

theorem eq_root_of_segments_eq_nil (inside : id < tree.nodes.size) (path : tree.segments id = []) :
    id = root := by
  by_contra notRoot
  obtain ⟨parent, -, -, longer⟩ := trie.segments_of_ne_root inside notRoot
  rw [path] at longer
  simp at longer

/-- What more than no names lead to stands below the node that all but the last lead to. -/
theorem exists_parent_of_leads {front : List String} {last : String}
    (leads : tree.Leads (front ++ [last]) id) :
    ∃ parent, tree.Leads front parent ∧ id ∈ (tree.node parent).children ∧
      (tree.node id).name = last := by
  have notRoot : id ≠ root := by
    rintro rfl
    have path := leads.2
    rw [segments_root trie.toWellFormed] at path
    simp at path
  obtain ⟨parent, smaller, listed, path⟩ := trie.segments_of_ne_root leads.1 notRoot
  rw [leads.2] at path
  obtain ⟨isFront, isLast⟩ := List.append_inj' path rfl
  exact ⟨parent, ⟨Nat.lt_trans smaller leads.1, isFront.symm⟩, listed, by simpa using isLast.symm⟩

/-- A node is told by its names. -/
theorem leads_unique {other : NamespaceId} (leads : tree.Leads names id)
    (leadsToo : tree.Leads names other) : id = other := by
  induction names using List.reverseRecOn generalizing id other with
  | nil =>
      rw [trie.eq_root_of_segments_eq_nil leads.1 leads.2,
        trie.eq_root_of_segments_eq_nil leadsToo.1 leadsToo.2]
  | append_singleton front last ih =>
      obtain ⟨parent, above, listed, named⟩ := trie.exists_parent_of_leads leads
      obtain ⟨otherParent, aboveToo, listedToo, namedToo⟩ := trie.exists_parent_of_leads leadsToo
      obtain rfl := ih above aboveToo
      exact trie.siblings parent id listed other listedToo (named.trans namedToo.symm)

/-- Whatever leads to a node starts with names that lead to one as well. -/
theorem exists_leads_of_append {front back : List String} (leads : tree.Leads (front ++ back) id) :
    ∃ above, tree.Leads front above := by
  induction back using List.reverseRecOn generalizing id with
  | nil => exact ⟨id, by simpa using leads⟩
  | append_singleton back last ih =>
      rw [← List.append_assoc] at leads
      obtain ⟨parent, above, -⟩ := trie.exists_parent_of_leads leads
      exact ih above

theorem child?_eq_some {parent child : NamespaceId} {name : String} :
    tree.child? parent name = some child ↔
      child ∈ (tree.node parent).children ∧ (tree.node child).name = name := by
  constructor
  · intro found
    have named := List.find?_some found
    exact ⟨List.mem_of_find?_eq_some found, by simpa using named⟩
  · rintro ⟨listed, named⟩
    cases found : tree.child? parent name with
    | none =>
        have absent := List.find?_eq_none.mp found child listed
        simp [named] at absent
    | some other =>
        have isNamed : (tree.node other).name = name := by simpa using List.find?_some found
        have isListed := List.mem_of_find?_eq_some found
        rw [trie.siblings parent other isListed child listed (isNamed.trans named.symm)]

theorem leads_of_child {parent child : NamespaceId} (above : tree.Leads names parent)
    (listed : child ∈ (tree.node parent).children) :
    tree.Leads (names ++ [(tree.node child).name]) child := by
  refine ⟨trie.child_inside parent child listed, ?_⟩
  rw [segments_of_parent trie.toWellFormed (trie.child_parent parent child listed), above.2]

/-- Going down from a node finds the node that the names behind it lead to. -/
theorem foldlM_child?_eq_some {front back : List String} {start : NamespaceId}
    (above : tree.Leads front start) :
    back.foldlM tree.child? start = some id ↔ tree.Leads (front ++ back) id := by
  induction back generalizing front start with
  | nil =>
      rw [List.append_nil]
      constructor
      · intro same
        obtain rfl : start = id := by simpa using same
        exact above
      · intro leads
        simp [trie.leads_unique above leads]
  | cons name rest ih =>
      rw [List.foldlM_cons]
      change (tree.child? start name).bind _ = some id ↔ _
      rw [Option.bind_eq_some_iff, List.append_cons]
      constructor
      · rintro ⟨child, found, down⟩
        obtain ⟨listed, rfl⟩ := trie.child?_eq_some.mp found
        exact (ih (trie.leads_of_child above listed)).mp down
      · intro leads
        obtain ⟨child, between⟩ := trie.exists_leads_of_append leads
        obtain ⟨parent, parentLeads, listed, named⟩ := trie.exists_parent_of_leads between
        obtain rfl := trie.leads_unique parentLeads above
        exact ⟨child, trie.child?_eq_some.mpr ⟨listed, named⟩, (ih between).mpr leads⟩

/-- A package is found at the node that its segments lead to. -/
theorem find?_eq_some_iff {package : String} :
    tree.find? package = some id ↔ tree.Leads (Package.segments package) id :=
  trie.foldlM_child?_eq_some ⟨trie.root_inside, segments_root trie.toWellFormed⟩

end Trie

end Nodes

section Growth

variable {tree : NamespaceTree}

theorem Keeps.addChild {parent : NamespaceId} (inside : parent < tree.nodes.size) (name : String) :
    tree.Keeps (tree.addChild parent name).2 where
  size_le := by simp
  name_eq _ below := (keeps_addChild tree inside name (Nat.ne_of_lt below)).1
  parent_eq _ below := (keeps_addChild tree inside name (Nat.ne_of_lt below)).2

/-- The new child is told by the names of its parent and its own, and nothing else is new. -/
theorem leads_addChild (trie : tree.Trie) {parent : NamespaceId} (inside : parent < tree.nodes.size)
    {name : String} {names : List String} {id : NamespaceId} :
    (tree.addChild parent name).2.Leads names id ↔
      tree.Leads names id ∨ names = tree.segments parent ++ [name] ∧ id = tree.nodes.size := by
  have grownWellFormed := trie.toWellFormed.addChild inside name
  have keeps : tree.Keeps (tree.addChild parent name).2 := .addChild inside name
  have isParent : ((tree.addChild parent name).2.node tree.nodes.size).parent = some parent := by
    rw [node_addChild_size]
  have path : (tree.addChild parent name).2.segments tree.nodes.size =
      tree.segments parent ++ [name] := by
    rw [segments_of_parent grownWellFormed isParent, node_addChild_size,
      keeps.segments_eq trie.toWellFormed inside]
  rcases Nat.lt_trichotomy id tree.nodes.size with below | rfl | beyond
  · simp [Leads, keeps.segments_eq trie.toWellFormed below, below, Nat.ne_of_lt below,
      Nat.lt_succ_of_lt below]
  · simp [Leads, path, eq_comm]
  · have outside : ¬ id < tree.nodes.size + 1 := Nat.not_lt_of_ge beyond
    simp [Leads, Nat.not_lt_of_gt beyond, Nat.ne_of_gt beyond, outside]

/-- What looking names up below a node leaves behind: the node found has these names, and the names
that lead to a node are those that did and the starts of what was looked up. -/
structure Interns (before : NamespaceTree) (names : List String) (id : NamespaceId)
    (after : NamespaceTree) : Prop where
  trie : after.Trie
  keeps : before.Keeps after
  leads : after.Leads names id
  paths : ∀ path, (∃ node, after.Leads path node) ↔
    (∃ node, before.Leads path node) ∨ path <+: names

theorem interns_internFrom {front back : List String} {start : NamespaceId} (trie : tree.Trie)
    (above : tree.Leads front start) :
    Interns tree (front ++ back) (tree.internFrom start back).1 (tree.internFrom start back).2 := by
  induction back generalizing tree front start with
  | nil =>
      refine ⟨trie, .refl tree, by simpa [internFrom] using above, fun path => ?_⟩
      refine ⟨fun known => .inl known, fun known => known.elim id fun isStart => ?_⟩
      obtain ⟨rest, rfl⟩ : path <+: front := by simpa using isStart
      exact trie.exists_leads_of_append above
  | cons name rest ih =>
      rw [internFrom, List.append_cons]
      split
      · rename_i child found
        obtain ⟨listed, rfl⟩ := trie.child?_eq_some.mp found
        exact ih trie (trie.leads_of_child above listed)
      · rename_i absent
        have inside := above.1
        have below : (tree.addChild start name).2.Leads (front ++ [name]) tree.nodes.size :=
          (leads_addChild trie inside).mpr (.inr ⟨by rw [above.2], rfl⟩)
        have interns := ih (trie.addChild inside absent) below
        refine ⟨interns.trie, (Keeps.addChild inside name).trans interns.keeps, interns.leads,
          fun path => (interns.paths path).trans ?_⟩
        constructor
        · rintro (⟨node, leads⟩ | isStart)
          · rcases (leads_addChild trie inside).mp leads with known | ⟨rfl, -⟩
            · exact .inl ⟨node, known⟩
            · exact .inr ⟨rest, by rw [above.2]⟩
          · exact .inr isStart
        · rintro (⟨node, known⟩ | isStart)
          · exact .inl ⟨node, (leads_addChild trie inside).mpr (.inl known)⟩
          · exact .inr isStart

theorem interns_intern (trie : tree.Trie) (package : String) :
    Interns tree (Package.segments package) (tree.intern package).1 (tree.intern package).2 :=
  interns_internFrom trie ⟨trie.root_inside, segments_root trie.toWellFormed⟩

end Growth

/-- Looks packages up one after the other, and lists each with the node found. -/
def internAll (tree : NamespaceTree) : List String → List (String × NamespaceId) × NamespaceTree
  | [] => ([], tree)
  | package :: rest =>
    let (id, grown) := tree.intern package
    let (answers, last) := grown.internAll rest
    ((package, id) :: answers, last)

section Histories

variable {tree before after : NamespaceTree}

theorem Leads.of_keeps {names : List String} {id : NamespaceId} (leads : before.Leads names id)
    (wellFormed : before.WellFormed) (keeps : before.Keeps after) : after.Leads names id :=
  ⟨Nat.lt_of_lt_of_le leads.1 keeps.size_le, by rw [keeps.segments_eq wellFormed leads.1, leads.2]⟩

/-- Every node of a trie has a start of what was looked up or of what it began with. -/
structure InternsAll (before : NamespaceTree) (packages : List String)
    (answers : List (String × NamespaceId)) (after : NamespaceTree) : Prop where
  trie : after.Trie
  keeps : before.Keeps after
  answered : answers.map Prod.fst = packages
  leads : ∀ answer ∈ answers, after.Leads (Package.segments answer.1) answer.2
  paths : ∀ path, (∃ node, after.Leads path node) ↔
    (∃ node, before.Leads path node) ∨ ∃ package ∈ packages, path <+: Package.segments package

theorem internsAll_internAll (trie : tree.Trie) (packages : List String) :
    InternsAll tree packages (tree.internAll packages).1 (tree.internAll packages).2 := by
  induction packages generalizing tree with
  | nil => exact ⟨trie, .refl tree, rfl, nofun, by simp [internAll]⟩
  | cons package rest ih =>
      have first := interns_intern trie package
      have last := ih first.trie
      rw [internAll]
      refine ⟨last.trie, first.keeps.trans last.keeps, by simp [last.answered], ?_, fun path => ?_⟩
      · intro answer listed
        rcases List.mem_cons.mp listed with rfl | later
        · exact first.leads.of_keeps first.trie.toWellFormed last.keeps
        · exact last.leads answer later
      · simp [last.paths, first.paths, or_assoc]

/-- What a run of look-ups leaves behind in a tree that had a root only. -/
structure TrieOf (packages : List String) (answers : List (String × NamespaceId))
    (tree : NamespaceTree) : Prop where
  /-- Every package is answered. -/
  answered : answers.map Prod.fst = packages
  /-- The node of a package has its segments. -/
  segments_eq : ∀ answer ∈ answers, tree.segments answer.2 = Package.segments answer.1
  /-- Packages have the same node exactly if they have the same segments. -/
  same_iff : ∀ first ∈ answers, ∀ second ∈ answers,
    first.2 = second.2 ↔ Package.segments first.1 = Package.segments second.1
  /-- Later look-ups keep the segments of every node. -/
  kept : ∀ later, ∀ id < tree.nodes.size, (tree.internAll later).2.segments id = tree.segments id
  /-- What a package is found at has its segments. -/
  found : ∀ package id, tree.find? package = some id →
    id < tree.nodes.size ∧ tree.segments id = Package.segments package
  /-- A package is found exactly if it is the root or starts one that was looked up. -/
  found_iff : ∀ package, (tree.find? package).isSome ↔
    Package.segments package = [] ∨
      ∃ other ∈ packages, Package.segments package <+: Package.segments other
  /-- Every other node has a smaller one as its parent, which lists it once. -/
  listed : ∀ id < tree.nodes.size, id ≠ root → ∃ parent < id,
    (tree.node id).parent = some parent ∧ (tree.node parent).children.count id = 1
  /-- The walk up from a node ends, and its names are the segments of the node. -/
  climbs : ∀ id, tree.Climbs id (tree.segments id).reverse

/-- Any run of look-ups builds a trie over the segments of the packages looked up. -/
theorem interned_packages_form_trie (packages : List String) :
    TrieOf packages (internAll {} packages).1 (internAll {} packages).2 := by
  have built := internsAll_internAll Trie.initial packages
  have trie := built.trie
  have leads := built.leads
  have nothing (path : List String) : (∃ node, Leads {} path node) ↔ path = [] := by
    constructor
    · rintro ⟨node, inside, rfl⟩
      obtain rfl : node = root := Nat.lt_one_iff.mp inside
      exact segments_root .initial
    · rintro rfl
      exact ⟨root, WellFormed.initial.root_inside, segments_root .initial⟩
  exact {
    answered := built.answered
    segments_eq := fun answer listed => (leads answer listed).2
    same_iff := fun first listed second listedToo => by
      have here := leads first listed
      have there := leads second listedToo
      constructor
      · intro same
        rw [← here.2, ← there.2, same]
      · intro same
        exact trie.leads_unique here (same ▸ there)
    kept := fun later id inside =>
      (internsAll_internAll trie later).keeps.segments_eq trie.toWellFormed inside
    found := fun package id found => trie.find?_eq_some_iff.mp found
    found_iff := fun package => by
      rw [Option.isSome_iff_exists]
      simp only [trie.find?_eq_some_iff, built.paths, nothing]
    listed := fun id inside notRoot => by
      obtain ⟨parent, isParent, once⟩ := trie.listed_once id inside notRoot
      exact ⟨parent, trie.parent_lt id parent isParent, isParent, once⟩
    climbs := trie.toWellFormed.climbs }

/-- Packages that share a prefix share its nodes, and empty segments count for nothing. -/
example : (internAll {} ["a.b.c", "a.b.d", ".a..b.c."]).1 =
    [("a.b.c", 3), ("a.b.d", 4), (".a..b.c.", 3)] := by decide

end Histories

end NamespaceTree

end DriverIdl
