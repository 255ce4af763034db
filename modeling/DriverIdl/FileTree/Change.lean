import DriverIdl.FileTree.Basic

/-!
# Changes of a tree

Making directories and writing files.  A change that fails half way keeps what it has made.
-/

namespace DriverIdl

/-- A step of a path as it is written. -/
def Path.Component.text : Path.Component → String
  | .root => "/"
  | .current => "."
  | .parent => ".."
  | .normal name => name

/-- The path of some steps. -/
def Path.ofComponents (components : List Path.Component) : Path :=
  components.foldl (fun path component => path.join ⟨component.text⟩) ⟨""⟩

/-- A change of a tree, which may fail. -/
abbrev FileChange := EStateM FileFault FileTree

namespace FileTree

/-- The tree with something at a place. -/
def put (tree : FileTree) (location : Location) (node : FileNode) : FileTree :=
  if tree.nodes.any fun known => known.1 == location then
    { tree with nodes := tree.nodes.map fun known =>
        if known.1 == location then (location, node) else known }
  else { tree with nodes := tree.nodes ++ [(location, node)] }

/-- The place at the end of a path in a directory that exists.  A path that ends with dots or at the
root names no new place and is refused with a given fault. -/
def newPlace (tree : FileTree) (path : Path) (pieces : List String) (unnamed : FileFault) :
    Except FileFault Location := do
  let parent ← tree.follow path pieces.dropLast
  if let some (.file _) := tree.node? parent then throw .notDirectory
  match pieces.getLast? with
  | none => throw unnamed
  | some name =>
    if name == "" || name == "." || name == ".." then throw unnamed
    else if longestName < name.utf8ByteSize then throw .nameTooLong
    else return parent ++ [name]

/-- The tree with a new directory.  Separators at the end of the path do not count. -/
def makeDirectory (tree : FileTree) (path : Path) : Except FileFault FileTree := do
  let pieces := (path.pieces.reverse.dropWhile String.isEmpty).reverse
  let location ← tree.newPlace path pieces .exists
  if (tree.node? location).isSome then throw .exists
  return tree.put location .directory

/-- The tree with a file, which replaces one that stands there. -/
def writeFile (tree : FileTree) (path : Path) (contents : ByteArray) : Except FileFault FileTree := do
  let location ← tree.newPlace path path.pieces .isDirectory
  if (tree.node? location).any FileNode.isDirectory then throw .isDirectory
  return tree.put location (.file contents)

end FileTree

namespace FileChange

/-- Carries out a change that gives a new tree. -/
def apply (change : FileTree → Except FileFault FileTree) : FileChange Unit := fun tree =>
  match change tree with
  | .ok after => .ok () after
  | .error fault => .error fault tree

/-- Makes a directory; one that exists already is no fault. -/
def ensureDirectory (path : Path) : FileChange Unit := fun tree =>
  match tree.makeDirectory path with
  | .ok after => .ok () after
  | .error fault => if tree.isDirectory path then .ok () tree else .error fault tree

/-- Makes a directory behind the reversed steps of its path.  Directories above it are made only if
one of them is missing. -/
def ensureBackwards : List Path.Component → FileChange Unit
  | [] => pure ()
  | last :: above => fun tree =>
    let path := Path.ofComponents (last :: above).reverse
    match tree.makeDirectory path with
    | .error .notFound => (do ensureBackwards above; ensureDirectory path) tree
    | _ => ensureDirectory path tree

/-- Makes a directory and all that are missing above it. -/
def ensureDirectories (path : Path) : FileChange Unit :=
  ensureBackwards path.components.reverse

/-- Writes a file. -/
def write (path : Path) (contents : ByteArray) : FileChange Unit :=
  apply fun tree => tree.writeFile path contents

end FileChange

end DriverIdl
