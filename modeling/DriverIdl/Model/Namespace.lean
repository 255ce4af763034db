import DriverIdl.Package

/-!
# Namespaces

Dotted package names as a tree.  Node 0 is the unnamed root; every other node has a name and a
parent with a smaller number.
-/

namespace DriverIdl

/-- The number of a namespace in its tree. -/
abbrev NamespaceId := Nat

/-- A node of the tree: its name, its neighbours and the types declared in it. -/
structure Namespace where
  name : String
  parent : Option NamespaceId
  children : List NamespaceId := []
  interfaces : List Nat := []
  sequenceables : List Nat := []
  deriving Inhabited

/-- Dotted package names as a tree. -/
structure NamespaceTree where
  nodes : Array Namespace := #[⟨"", none, [], [], []⟩]
  deriving Inhabited

namespace NamespaceTree

/-- The number of the root. -/
def root : NamespaceId := 0

/-- A node of the tree. -/
def node (tree : NamespaceTree) (id : NamespaceId) : Namespace :=
  tree.nodes[id]?.getD ⟨"", none, [], [], []⟩

/-- The child of a node with a name. -/
def child? (tree : NamespaceTree) (parent : NamespaceId) (name : String) : Option NamespaceId :=
  (tree.node parent).children.find? fun child => (tree.node child).name == name

/-- A new child of a node, and its number. -/
def addChild (tree : NamespaceTree) (parent : NamespaceId) (name : String) :
    NamespaceId × NamespaceTree :=
  let id := tree.nodes.size
  let link (namespaceNode : Namespace) : Namespace :=
    { namespaceNode with children := namespaceNode.children ++ [id] }
  (id, ⟨(tree.nodes.modify parent link).push ⟨name, some parent, [], [], []⟩⟩)

/-- The node below `parent` along a list of names; missing nodes are added. -/
def internFrom (tree : NamespaceTree) (parent : NamespaceId) :
    List String → NamespaceId × NamespaceTree
  | [] => (parent, tree)
  | name :: rest =>
    match tree.child? parent name with
    | some child => tree.internFrom child rest
    | none =>
      let (child, grown) := tree.addChild parent name
      grown.internFrom child rest

/-- The node of a package; missing nodes are added. -/
def intern (tree : NamespaceTree) (package : String) : NamespaceId × NamespaceTree :=
  tree.internFrom root (Package.segments package)

/-- The node of a package, if there is one. -/
def find? (tree : NamespaceTree) (package : String) : Option NamespaceId :=
  (Package.segments package).foldlM tree.child? root

/-- The names from a node up to the root, for at most `steps` steps. -/
def namesUp (tree : NamespaceTree) : Nat → NamespaceId → List String
  | 0, _ => []
  | steps + 1, id =>
    match (tree.node id).parent with
    | none => []
    | some parent => (tree.node id).name :: tree.namesUp steps parent

/-- The names from the root down to a node.  A parent has a smaller number, so a node is at most as
deep as its number. -/
def segments (tree : NamespaceTree) (id : NamespaceId) : List String :=
  (tree.namesUp (id + 1) id).reverse

/-- The dotted name of a node. -/
def fullName (tree : NamespaceTree) (id : NamespaceId) : String :=
  String.intercalate "." (tree.segments id)

/-- Lists an interface in a node, once. -/
def addInterface (tree : NamespaceTree) (id : NamespaceId) (type : Nat) : NamespaceTree :=
  ⟨tree.nodes.modify id fun namespaceNode =>
    if namespaceNode.interfaces.contains type then namespaceNode
    else { namespaceNode with interfaces := namespaceNode.interfaces ++ [type] }⟩

/-- Lists a sequenceable in a node, once. -/
def addSequenceable (tree : NamespaceTree) (id : NamespaceId) (type : Nat) : NamespaceTree :=
  ⟨tree.nodes.modify id fun namespaceNode =>
    if namespaceNode.sequenceables.contains type then namespaceNode
    else { namespaceNode with sequenceables := namespaceNode.sequenceables ++ [type] }⟩

end NamespaceTree

end DriverIdl
