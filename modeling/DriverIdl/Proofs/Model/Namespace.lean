import DriverIdl.Model.Namespace
import DriverIdl.Proofs.Text.Words
import Mathlib.Data.List.Basic

/-!
# The tree of namespaces

A node of the tree stands for the names from the root down to it.  Nodes are only ever added below
nodes that are there already, so a parent has a smaller number than its children, the walk up from a
node ends at the root, and the names of a node never change.  The node of a package therefore tells
the package.
-/

namespace DriverIdl

/-- The types that a node lists. -/
def Namespace.listed (node : Namespace) : List Nat := node.interfaces ++ node.sequenceables

namespace NamespaceTree

/-- Every link leads from a node to a later one that names it as its parent, and the walk up from a
node goes to smaller numbers. -/
structure WellFormed (tree : NamespaceTree) : Prop where
  root_inside : root < tree.nodes.size
  root_top : (tree.node root).parent = none
  parent_lt : ∀ id parent, (tree.node id).parent = some parent → parent < id
  child_inside : ∀ id, ∀ child ∈ (tree.node id).children, child < tree.nodes.size
  child_parent : ∀ id, ∀ child ∈ (tree.node id).children, (tree.node child).parent = some id

/-- Every node but the root stands once below its parent, and siblings have different names. -/
structure Trie (tree : NamespaceTree) : Prop extends WellFormed tree where
  listed_once : ∀ id < tree.nodes.size, id ≠ root →
    ∃ parent, (tree.node id).parent = some parent ∧ (tree.node parent).children.count id = 1
  siblings : ∀ id, ∀ first ∈ (tree.node id).children, ∀ second ∈ (tree.node id).children,
    (tree.node first).name = (tree.node second).name → first = second

/-- The nodes of the first tree have kept their names and parents in the second. -/
structure Keeps (before after : NamespaceTree) : Prop where
  size_le : before.nodes.size ≤ after.nodes.size
  name_eq : ∀ id < before.nodes.size, (after.node id).name = (before.node id).name
  parent_eq : ∀ id < before.nodes.size, (after.node id).parent = (before.node id).parent

namespace Keeps

variable {before middle after : NamespaceTree}

theorem refl (tree : NamespaceTree) : Keeps tree tree := ⟨Nat.le_refl _, fun _ _ => rfl, fun _ _ => rfl⟩

theorem trans (first : Keeps before middle) (second : Keeps middle after) : Keeps before after where
  size_le := Nat.le_trans first.size_le second.size_le
  name_eq id inside :=
    (second.name_eq id (Nat.lt_of_lt_of_le inside first.size_le)).trans (first.name_eq id inside)
  parent_eq id inside :=
    (second.parent_eq id (Nat.lt_of_lt_of_le inside first.size_le)).trans
      (first.parent_eq id inside)

end Keeps

/-- The first tree is what the second one grew from: its nodes have kept their names and parents, and
the names of the new ones are words. -/
structure Extends (before after : NamespaceTree) : Prop where
  size_le : before.nodes.size ≤ after.nodes.size
  name_eq : ∀ id < before.nodes.size, (after.node id).name = (before.node id).name
  parent_eq : ∀ id < before.nodes.size, (after.node id).parent = (before.node id).parent
  named : ∀ id, before.nodes.size ≤ id → Text.OnlyWord (after.node id).name.toList
  wellFormed : before.WellFormed → after.WellFormed
  trie : before.Trie → after.Trie

/-- What is no node of the tree has no name. -/
theorem onlyWord_name_of_size_le {tree : NamespaceTree} {id : NamespaceId}
    (outside : tree.nodes.size ≤ id) : Text.OnlyWord (tree.node id).name.toList := by
  rw [node, Array.getElem?_eq_none outside]
  intro character impossible
  cases impossible

namespace Extends

variable {before middle after : NamespaceTree}

theorem refl (tree : NamespaceTree) : Extends tree tree :=
  ⟨Nat.le_refl _, fun _ _ => rfl, fun _ _ => rfl, fun _ => onlyWord_name_of_size_le,
    fun wellFormed => wellFormed, fun trie => trie⟩

theorem keeps (grown : Extends before after) : Keeps before after :=
  ⟨grown.size_le, grown.name_eq, grown.parent_eq⟩

theorem trans (first : Extends before middle) (second : Extends middle after) :
    Extends before after where
  size_le := (first.keeps.trans second.keeps).size_le
  name_eq := (first.keeps.trans second.keeps).name_eq
  parent_eq := (first.keeps.trans second.keeps).parent_eq
  named id outside := by
    rcases Nat.lt_or_ge id middle.nodes.size with inside | beyond
    · rw [second.name_eq id inside]
      exact first.named id outside
    · exact second.named id beyond
  wellFormed start := second.wellFormed (first.wellFormed start)
  trie start := second.trie (first.trie start)

end Extends

theorem WellFormed.initial : WellFormed {} where
  root_inside := by decide
  root_top := rfl
  parent_lt id parent isParent := by
    match id with
    | 0 => simp [node] at isParent
    | id + 1 => simp [node] at isParent
  child_inside id child listed := by
    match id with
    | 0 => simp [node] at listed
    | id + 1 => simp [node] at listed
  child_parent id child listed := by
    match id with
    | 0 => simp [node] at listed
    | id + 1 => simp [node] at listed

theorem Trie.initial : Trie {} where
  toWellFormed := .initial
  listed_once id inside notRoot := by
    have isRoot : id = root := Nat.lt_one_iff.mp inside
    exact absurd isRoot notRoot
  siblings id first listed := by
    have inside := WellFormed.initial.child_parent id first listed
    rcases Nat.eq_zero_or_pos first with rfl | later
    · cases inside
    · rw [node, Array.getElem?_eq_none later] at inside
      cases inside

section Walk

variable {tree : NamespaceTree}

/-- The walk up from a node takes at most as many steps as the number of the node. -/
theorem namesUp_eq (wellFormed : tree.WellFormed) {steps : Nat} {id : NamespaceId}
    (enough : id < steps) : tree.namesUp steps id = tree.namesUp (id + 1) id := by
  induction id using Nat.strongRecOn generalizing steps with
  | ind id ih =>
    cases steps with
    | zero => exact absurd enough (Nat.not_lt_zero id)
    | succ steps =>
        rw [namesUp, namesUp]
        split
        · rfl
        · rename_i parent isParent
          have smaller : parent < id := wellFormed.parent_lt id parent isParent
          have left := ih parent smaller (Nat.lt_of_lt_of_le smaller (Nat.lt_succ_iff.mp enough))
          have right := ih parent smaller smaller
          rw [left, right]

theorem segments_root (wellFormed : tree.WellFormed) : tree.segments root = [] := by
  simp [segments, namesUp, wellFormed.root_top]

/-- A child adds its name to the names of its parent. -/
theorem segments_of_parent (wellFormed : tree.WellFormed) {id parent : NamespaceId}
    (isParent : (tree.node id).parent = some parent) :
    tree.segments id = tree.segments parent ++ [(tree.node id).name] := by
  have smaller := wellFormed.parent_lt id parent isParent
  have walk : tree.namesUp (id + 1) id = (tree.node id).name :: tree.namesUp id parent := by
    rw [namesUp, isParent]
  rw [segments, walk, namesUp_eq wellFormed smaller, List.reverse_cons, segments]

theorem Keeps.segments_eq {after : NamespaceTree} (keeps : tree.Keeps after)
    (wellFormed : tree.WellFormed) {id : NamespaceId} (inside : id < tree.nodes.size) :
    after.segments id = tree.segments id := by
  have walk : ∀ steps id, id < tree.nodes.size → after.namesUp steps id = tree.namesUp steps id := by
    intro steps
    induction steps with
    | zero => intros; rfl
    | succ steps ih =>
        intro id inside
        rw [namesUp, namesUp, keeps.parent_eq id inside, keeps.name_eq id inside]
        split
        · rfl
        · rename_i parent isParent
          rw [ih parent (Nat.lt_trans (wellFormed.parent_lt id parent isParent) inside)]
  rw [segments, walk _ _ inside, segments]

theorem Extends.segments_eq {after : NamespaceTree} (grown : tree.Extends after)
    (wellFormed : tree.WellFormed) {id : NamespaceId} (inside : id < tree.nodes.size) :
    after.segments id = tree.segments id :=
  grown.keeps.segments_eq wellFormed inside

theorem Extends.fullName_eq {after : NamespaceTree} (grown : tree.Extends after)
    (wellFormed : tree.WellFormed) {id : NamespaceId} (inside : id < tree.nodes.size) :
    after.fullName id = tree.fullName id := by
  rw [fullName, grown.segments_eq wellFormed inside, fullName]

end Walk

section Growth

variable (tree : NamespaceTree)

@[simp] theorem size_addChild (parent : NamespaceId) (name : String) :
    (tree.addChild parent name).2.nodes.size = tree.nodes.size + 1 := by
  simp [addChild]

theorem node_addChild_size (parent : NamespaceId) (name : String) :
    (tree.addChild parent name).2.node tree.nodes.size = ⟨name, some parent, [], [], []⟩ := by
  simp only [addChild, node, Array.getElem?_push, Array.size_modify, if_true, Option.getD_some]

theorem node_addChild_parent {parent : NamespaceId} (inside : parent < tree.nodes.size)
    (name : String) :
    (tree.addChild parent name).2.node parent =
      { tree.node parent with children := (tree.node parent).children ++ [tree.nodes.size] } := by
  simp only [addChild, node, Array.getElem?_push, Array.size_modify, Array.getElem?_modify, if_true,
    if_neg (Nat.ne_of_lt inside), Array.getElem?_eq_getElem inside, Option.map_some,
    Option.getD_some]

theorem node_addChild_of_ne {id parent : NamespaceId} (notParent : id ≠ parent)
    (notNew : id ≠ tree.nodes.size) (name : String) :
    (tree.addChild parent name).2.node id = tree.node id := by
  simp [addChild, node, Array.getElem?_push, Array.getElem?_modify, notParent.symm, notNew]

theorem keeps_addChild {parent : NamespaceId} (inside : parent < tree.nodes.size) (name : String)
    {id : NamespaceId} (notNew : id ≠ tree.nodes.size) :
    ((tree.addChild parent name).2.node id).name = (tree.node id).name ∧
      ((tree.addChild parent name).2.node id).parent = (tree.node id).parent := by
  by_cases isParent : id = parent
  · subst isParent
    rw [node_addChild_parent tree inside]
    exact ⟨rfl, rfl⟩
  · rw [node_addChild_of_ne tree isParent notNew]
    exact ⟨rfl, rfl⟩

/-- A link of the grown tree is one of the old tree or the link to the new node. -/
theorem children_addChild {parent : NamespaceId} (inside : parent < tree.nodes.size) (name : String)
    (id : NamespaceId) :
    ((tree.addChild parent name).2.node id).children =
      (tree.node id).children ++ if id = parent then [tree.nodes.size] else [] := by
  by_cases isNew : id = tree.nodes.size
  · have outside : (tree.node id).children = [] := by
      rw [isNew, node, Array.getElem?_eq_none (Nat.le_refl _)]
      rfl
    rw [outside, isNew, node_addChild_size, if_neg (Nat.ne_of_gt inside)]
    rfl
  · by_cases isParent : id = parent
    · subst isParent
      rw [node_addChild_parent tree inside, if_pos rfl]
    · rw [node_addChild_of_ne tree isParent isNew, if_neg isParent, List.append_nil]

theorem WellFormed.addChild {tree : NamespaceTree} (wellFormed : tree.WellFormed)
    {parent : NamespaceId} (inside : parent < tree.nodes.size) (name : String) :
    (tree.addChild parent name).2.WellFormed where
  root_inside := by
    rw [size_addChild]
    exact Nat.lt_succ_of_lt wellFormed.root_inside
  root_top := by
    rw [(keeps_addChild tree inside name (Nat.ne_of_lt wellFormed.root_inside)).2,
      wellFormed.root_top]
  parent_lt id above isParent := by
    by_cases isNew : id = tree.nodes.size
    · subst isNew
      rw [node_addChild_size] at isParent
      obtain rfl : parent = above := by simpa using isParent
      exact inside
    · rw [(keeps_addChild tree inside name isNew).2] at isParent
      exact wellFormed.parent_lt id above isParent
  child_inside id child listed := by
    rw [size_addChild]
    rw [children_addChild tree inside] at listed
    rcases List.mem_append.mp listed with known | isNew
    · exact Nat.lt_succ_of_lt (wellFormed.child_inside id child known)
    · split at isNew
      · rw [List.mem_singleton.mp isNew]
        exact Nat.lt_succ_self _
      · cases isNew
  child_parent id child listed := by
    rw [children_addChild tree inside] at listed
    rcases List.mem_append.mp listed with known | isNew
    · have below := wellFormed.child_inside id child known
      rw [(keeps_addChild tree inside name (Nat.ne_of_lt below)).2]
      exact wellFormed.child_parent id child known
    · split at isNew
      · rename_i isParent
        rw [List.mem_singleton.mp isNew, node_addChild_size, isParent]
      · cases isNew

/-- What is listed below a node of the grown tree was listed there or is the new node. -/
theorem mem_children_addChild {tree : NamespaceTree} {parent : NamespaceId} (inside : parent < tree.nodes.size)
    {name : String} {id child : NamespaceId} :
    child ∈ ((tree.addChild parent name).2.node id).children ↔
      child ∈ (tree.node id).children ∨ id = parent ∧ child = tree.nodes.size := by
  rw [children_addChild tree inside, List.mem_append]
  by_cases isParent : id = parent <;> simp [isParent]

/-- A name that no child has makes a new child. -/
theorem Trie.addChild {tree : NamespaceTree} (trie : tree.Trie) {parent : NamespaceId} (inside : parent < tree.nodes.size)
    {name : String} (absent : tree.child? parent name = none) :
    (tree.addChild parent name).2.Trie where
  toWellFormed := trie.toWellFormed.addChild inside name
  listed_once id below notRoot := by
    by_cases isNew : id = tree.nodes.size
    · have fresh : tree.nodes.size ∉ (tree.node parent).children := fun listed =>
        Nat.lt_irrefl _ (trie.child_inside parent _ listed)
      subst isNew
      refine ⟨parent, by rw [node_addChild_size], ?_⟩
      rw [children_addChild tree inside, if_pos rfl, List.count_append,
        List.count_eq_zero_of_not_mem fresh, List.count_singleton_self]
    · rw [size_addChild] at below
      obtain ⟨above, isParent, once⟩ := trie.listed_once id (by omega) notRoot
      refine ⟨above, by rw [(keeps_addChild tree inside name isNew).2, isParent], ?_⟩
      have notAdded : id ∉ if above = parent then [tree.nodes.size] else [] := by
        split <;> simp [isNew]
      rw [children_addChild tree inside, List.count_append, once,
        List.count_eq_zero_of_not_mem notAdded]
  siblings id first listed second listedToo same := by
    have nameOf {child : NamespaceId} (known : child ∈ (tree.node id).children) :
        ((tree.addChild parent name).2.node child).name = (tree.node child).name :=
      (keeps_addChild tree inside name (Nat.ne_of_lt (trie.child_inside id child known))).1
    have unnamed {child : NamespaceId} (known : child ∈ (tree.node parent).children) :
        (tree.node child).name ≠ name := by
      simpa using List.find?_eq_none.mp absent child known
    rcases (mem_children_addChild inside).mp listed with known | ⟨rfl, rfl⟩
    · rcases (mem_children_addChild inside).mp listedToo with knownToo | ⟨rfl, rfl⟩
      · rw [nameOf known, nameOf knownToo] at same
        exact trie.siblings id first known second knownToo same
      · rw [nameOf known, node_addChild_size] at same
        exact absurd same (unnamed known)
    · rcases (mem_children_addChild inside).mp listedToo with knownToo | ⟨-, rfl⟩
      · rw [nameOf knownToo, node_addChild_size] at same
        exact absurd same.symm (unnamed knownToo)
      · rfl

theorem extends_addChild {parent : NamespaceId} (inside : parent < tree.nodes.size)
    {name : String} (absent : tree.child? parent name = none) (isWord : Text.OnlyWord name.toList) :
    tree.Extends (tree.addChild parent name).2 where
  size_le := by simp
  name_eq _ below := (keeps_addChild tree inside name (Nat.ne_of_lt below)).1
  parent_eq _ below := (keeps_addChild tree inside name (Nat.ne_of_lt below)).2
  named id outside := by
    by_cases isNew : id = tree.nodes.size
    · rw [isNew, node_addChild_size]
      exact isWord
    · rw [(keeps_addChild tree inside name isNew).1]
      exact onlyWord_name_of_size_le outside
  wellFormed wellFormed := wellFormed.addChild inside name
  trie trie := trie.addChild inside absent

section Modify

variable (id : NamespaceId) {change : Namespace → Namespace}
  (name_eq : ∀ node, (change node).name = node.name)
  (parent_eq : ∀ node, (change node).parent = node.parent)
  (children_eq : ∀ node, (change node).children = node.children)

include name_eq parent_eq children_eq

/-- Listing types in a node changes neither names nor links. -/
theorem kept_modify (other : NamespaceId) :
    (node ⟨tree.nodes.modify id change⟩ other).name = (tree.node other).name ∧
      (node ⟨tree.nodes.modify id change⟩ other).parent = (tree.node other).parent ∧
      (node ⟨tree.nodes.modify id change⟩ other).children = (tree.node other).children := by
  simp only [node, Array.getElem?_modify]
  split
  · cases tree.nodes[other]? <;> simp [name_eq, parent_eq, children_eq]
  · simp

theorem WellFormed.modify {tree : NamespaceTree} (wellFormed : tree.WellFormed) :
    WellFormed ⟨tree.nodes.modify id change⟩ := by
  have kept := tree.kept_modify id name_eq parent_eq children_eq
  constructor
  · simpa using wellFormed.root_inside
  · rw [(kept root).2.1, wellFormed.root_top]
  · intro other parent isParent
    rw [(kept other).2.1] at isParent
    exact wellFormed.parent_lt other parent isParent
  · intro other child listed
    rw [(kept other).2.2] at listed
    simpa using wellFormed.child_inside other child listed
  · intro other child listed
    rw [(kept other).2.2] at listed
    rw [(kept child).2.1]
    exact wellFormed.child_parent other child listed

theorem Trie.modify {tree : NamespaceTree} (trie : tree.Trie) :
    Trie ⟨tree.nodes.modify id change⟩ where
  toWellFormed := trie.toWellFormed.modify id name_eq parent_eq children_eq
  listed_once other below notRoot := by
    have kept := tree.kept_modify id name_eq parent_eq children_eq
    obtain ⟨parent, isParent, once⟩ := trie.listed_once other (by simpa using below) notRoot
    exact ⟨parent, by rw [(kept other).2.1, isParent], by rw [(kept parent).2.2, once]⟩
  siblings other first listed second listedToo same := by
    have kept := tree.kept_modify id name_eq parent_eq children_eq
    rw [(kept other).2.2] at listed listedToo
    rw [(kept first).1, (kept second).1] at same
    exact trie.siblings other first listed second listedToo same

theorem extends_modify : tree.Extends ⟨tree.nodes.modify id change⟩ := by
  have kept := tree.kept_modify id name_eq parent_eq children_eq
  refine ⟨by simp, fun other _ => (kept other).1, fun other _ => (kept other).2.1,
    fun other outside => ?_, fun wellFormed => wellFormed.modify id name_eq parent_eq children_eq,
    fun trie => trie.modify id name_eq parent_eq children_eq⟩
  rw [(kept other).1]
  exact onlyWord_name_of_size_le outside

end Modify

theorem extends_addInterface (id : NamespaceId) (type : Nat) :
    tree.Extends (tree.addInterface id type) := by
  apply extends_modify <;> intro node <;> split <;> rfl

theorem extends_addSequenceable (id : NamespaceId) (type : Nat) :
    tree.Extends (tree.addSequenceable id type) := by
  apply extends_modify <;> intro node <;> split <;> rfl

end Growth

section Listings

variable (tree : NamespaceTree)

theorem listed_of_size_le {id : NamespaceId} (outside : tree.nodes.size ≤ id) :
    (tree.node id).listed = [] := by
  rw [node, Array.getElem?_eq_none outside]
  rfl

/-- A new node lists nothing, and its parent lists what it did. -/
theorem listed_addChild (parent : NamespaceId) (name : String) (id : NamespaceId) :
    ((tree.addChild parent name).2.node id).listed = (tree.node id).listed := by
  by_cases isNew : id = tree.nodes.size
  · subst isNew
    rw [node_addChild_size, listed_of_size_le tree (Nat.le_refl _)]
    rfl
  · by_cases isParent : id = parent
    · subst isParent
      rcases Nat.lt_or_ge id tree.nodes.size with inside | outside
      · rw [node_addChild_parent tree inside]
        rfl
      · have beyond : tree.nodes.size < id := Nat.lt_of_le_of_ne outside (Ne.symm isNew)
        rw [listed_of_size_le tree outside, listed_of_size_le]
        rwa [size_addChild]
    · rw [node_addChild_of_ne tree isParent isNew]

theorem listed_internFrom (names : List String) (tree : NamespaceTree) (parent id : NamespaceId) :
    ((tree.internFrom parent names).2.node id).listed = (tree.node id).listed := by
  induction names generalizing tree parent with
  | nil => rfl
  | cons name rest ih =>
      rw [internFrom]
      split
      · exact ih tree _
      · exact (ih (tree.addChild parent name).2 _).trans (listed_addChild tree parent name id)

theorem listed_intern (package : String) (id : NamespaceId) :
    ((tree.intern package).2.node id).listed = (tree.node id).listed :=
  listed_internFrom _ tree root id

/-- Whatever a change of one node lets it list, the other nodes list what they did. -/
theorem mem_listed_modify {id other : NamespaceId} {change : Namespace → Namespace} {type added : Nat}
    (adds : ∀ node : Namespace, type ∈ (change node).listed → type ∈ node.listed ∨ type = added)
    (listed : type ∈ (node ⟨tree.nodes.modify id change⟩ other).listed) :
    type ∈ (tree.node other).listed ∨ type = added := by
  simp only [node, Array.getElem?_modify] at listed ⊢
  split at listed
  · cases found : tree.nodes[other]? with
    | none => simp_all
    | some namespaceNode =>
        rw [found] at listed
        simpa using adds namespaceNode listed
  · exact .inl listed

theorem mem_listed_addInterface {id other : NamespaceId} {type added : Nat}
    (listed : type ∈ ((tree.addInterface id added).node other).listed) :
    type ∈ (tree.node other).listed ∨ type = added := by
  refine tree.mem_listed_modify (fun namespaceNode listed => ?_) listed
  split at listed
  · exact .inl listed
  · simp only [Namespace.listed, List.mem_append, List.mem_singleton] at listed ⊢
    tauto

theorem mem_listed_addSequenceable {id other : NamespaceId} {type added : Nat}
    (listed : type ∈ ((tree.addSequenceable id added).node other).listed) :
    type ∈ (tree.node other).listed ∨ type = added := by
  refine tree.mem_listed_modify (fun namespaceNode listed => ?_) listed
  split at listed
  · exact .inl listed
  · simp only [Namespace.listed, List.mem_append, List.mem_singleton] at listed ⊢
    tauto

end Listings

/-- What looking a package up does: the tree grows, and the node found has the names of the package
below those of the start. -/
theorem internFrom_spec (names : List String) (tree : NamespaceTree) (parent : NamespaceId)
    (wellFormed : tree.WellFormed) (inside : parent < tree.nodes.size)
    (words : ∀ name ∈ names, Text.OnlyWord name.toList) :
    tree.Extends (tree.internFrom parent names).2 ∧
      (tree.internFrom parent names).1 < (tree.internFrom parent names).2.nodes.size ∧
      (tree.internFrom parent names).2.segments (tree.internFrom parent names).1 =
        tree.segments parent ++ names := by
  induction names generalizing tree parent with
  | nil => exact ⟨.refl tree, inside, by simp [internFrom]⟩
  | cons name rest ih =>
      rw [internFrom]
      split
      · rename_i child found
        obtain ⟨isName, listed⟩ : (tree.node child).name = name ∧
            child ∈ (tree.node parent).children := by
          have named := List.find?_some found
          exact ⟨by simpa using named, List.mem_of_find?_eq_some found⟩
        have below := wellFormed.child_inside parent child listed
        obtain ⟨grown, idInside, path⟩ :=
          ih tree child wellFormed below fun other listed => words other (List.mem_cons_of_mem _ listed)
        refine ⟨grown, idInside, ?_⟩
        rw [path, segments_of_parent wellFormed (wellFormed.child_parent parent child listed),
          isName, List.append_assoc, List.singleton_append]
      · rename_i absent
        have first := extends_addChild tree inside absent (words name List.mem_cons_self)
        have grownWellFormed := first.wellFormed wellFormed
        have isParent : ((tree.addChild parent name).2.node tree.nodes.size).parent = some parent := by
          rw [node_addChild_size]
        obtain ⟨grown, idInside, path⟩ :=
          ih (tree.addChild parent name).2 tree.nodes.size grownWellFormed (by simp)
            fun other listed => words other (List.mem_cons_of_mem _ listed)
        refine ⟨first.trans grown, idInside, ?_⟩
        rw [show (tree.addChild parent name) = (tree.nodes.size, (tree.addChild parent name).2) from rfl]
        rw [path, segments_of_parent grownWellFormed isParent, node_addChild_size,
          first.segments_eq wellFormed inside, List.append_assoc, List.singleton_append]

theorem intern_spec (tree : NamespaceTree) {package : String} (wellFormed : tree.WellFormed)
    (dotted : Package.Dotted package) :
    tree.Extends (tree.intern package).2 ∧
      (tree.intern package).1 < (tree.intern package).2.nodes.size ∧
      (tree.intern package).2.segments (tree.intern package).1 = Package.segments package := by
  obtain ⟨grown, inside, path⟩ :=
    internFrom_spec (Package.segments package) tree root wellFormed wellFormed.root_inside
      fun _ listed => dotted.onlyWord listed
  exact ⟨grown, inside, by rw [segments_root wellFormed] at path; exact path⟩

end NamespaceTree

end DriverIdl
