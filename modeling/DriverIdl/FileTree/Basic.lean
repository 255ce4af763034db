import DriverIdl.FileTree.Fault
import DriverIdl.Path

/-!
# Trees of files

The files and directories that a run sees, as a value.  A path is followed piece by piece: every
piece but the last must stand for a directory, an empty piece or a dot stays in place and two dots go
up.  What cannot be followed is refused with the fault that the system gives.
-/

namespace DriverIdl

/-- A place in a tree: the names from its root down. -/
abbrev Location := List String

/-- What stands at a place. -/
inductive FileNode where
  | directory
  | file (contents : ByteArray)
  deriving Inhabited

instance : BEq FileNode where
  beq
    | .directory, .directory => true
    | .file left, .file right => left.data == right.data
    | _, _ => false

/-- Whether a node is a directory. -/
def FileNode.isDirectory : FileNode → Bool
  | .directory => true
  | .file _ => false

/-- Files and directories by their places, and the place where relative paths start.  The root is
always a directory. -/
structure FileTree where
  nodes : List (Location × FileNode) := []
  workingDirectory : Location := []
  deriving Inhabited

/-- The pieces between the separators of a path. -/
def Path.pieces (path : Path) : List String :=
  (Text.pieces '/' path.text.toList).map String.ofList

namespace FileTree

/-- The most bytes that a name may have. -/
def longestName : Nat := 255

/-- The most bytes that a path may have. -/
def longestPath : Nat := 4095

/-- What stands at a place. -/
def node? (tree : FileTree) (location : Location) : Option FileNode :=
  if location.isEmpty then some .directory else tree.nodes.lookup location

/-- Follows one piece of a path from a place. -/
def step (tree : FileTree) (place : Location) (piece : String) : Except FileFault Location :=
  match tree.node? place with
  | some .directory =>
    if piece == "" || piece == "." then .ok place
    else if piece == ".." then .ok place.dropLast
    else if longestName < piece.utf8ByteSize then .error .nameTooLong
    else if (tree.node? (place ++ [piece])).isSome then .ok (place ++ [piece])
    else .error .notFound
  | some (.file _) => .error .notDirectory
  | none => .error .notFound

/-- Follows pieces of a path from the place where the path starts.  A path with a zero byte is refused
before anything else. -/
def follow (tree : FileTree) (path : Path) (pieces : List String) : Except FileFault Location :=
  if path.text.toList.contains '\x00' then .error .zeroByte
  else if path.text.isEmpty then .error .notFound
  else if longestPath < path.text.utf8ByteSize then .error .nameTooLong
  else pieces.foldlM tree.step (if path.isAbsolute then [] else tree.workingDirectory)

/-- The place that a path leads to. -/
def locate (tree : FileTree) (path : Path) : Except FileFault Location :=
  tree.follow path path.pieces

/-- The bytes of the file at a path. -/
def read (tree : FileTree) (path : Path) : Except FileFault ByteArray := do
  match tree.node? (← tree.locate path) with
  | some (.file contents) => return contents
  | _ => throw .isDirectory

/-- The text of the file at a path. -/
def readText (tree : FileTree) (path : Path) : Except FileFault String := do
  match String.fromUTF8? (← tree.read path) with
  | some text => return text
  | none => throw .notUtf8

/-- Whether a path leads to a file. -/
def isFile (tree : FileTree) (path : Path) : Bool :=
  match tree.read path with
  | .ok _ => true
  | .error _ => false

/-- Whether a path leads to a directory. -/
def isDirectory (tree : FileTree) (path : Path) : Bool :=
  match tree.locate path with
  | .ok location => (tree.node? location).any FileNode.isDirectory
  | .error _ => false

/-- The places of all files. -/
def files (tree : FileTree) : List Location :=
  tree.nodes.filterMap fun (location, node) =>
    match node with
    | .file _ => some location
    | .directory => none

/-- A path as a listing shows it: a directory ends with a separator. -/
def listed (path : Path) : FileNode → Path
  | .directory => ⟨path.text ++ "/"⟩
  | .file _ => path

/-- Everything below a directory as a listing shows it, in the order of the paths shown. -/
def below (tree : FileTree) (directory : Path) : List (Path × FileNode) :=
  match tree.locate directory with
  | .error _ => []
  | .ok place =>
    let found := tree.nodes.filterMap fun (location, node) =>
      if place.isPrefixOf location && place.length < location.length then
        let path := (location.drop place.length).foldl (fun path name => path.join ⟨name⟩) directory
        some (listed path node, node)
      else none
    found.mergeSort fun left right => decide (left.1.text ≤ right.1.text)

end FileTree

end DriverIdl
