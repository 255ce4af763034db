import DriverIdl.CommandLine

/-!
# The program

Loads the part of the file system that a command looks at, carries the command out over that tree and
stores what it changed.
-/

namespace DriverIdl.Disk

/-- The path of a place. -/
def pathOf (location : Location) : Path := ⟨"/" ++ String.intercalate "/" location⟩

/-- The place that a path names if no directory on the way is a link. -/
def placeOf (workingDirectory : Location) (path : Path) : Location :=
  path.pieces.foldl
    (fun place piece =>
      if piece == "" || piece == "." then place
      else if piece == ".." then place.dropLast
      else place ++ [piece])
    (if path.isAbsolute then [] else workingDirectory)

/-- The places that a command looks at: the sources, the imports of all files that are loaded, and
whatever it would write. -/
def wantedPlaces (arguments : List String) (tree : FileTree) : List Location :=
  let toPlace := placeOf tree.workingDirectory
  match CommandLine.read arguments with
  | .error _ => []
  | .ok line =>
    match line.options with
    | .error _ => []
    | .ok options =>
      let imported := tree.files.flatMap fun location =>
        let path := pathOf location
        match (tree.readText path).toOption.map (Header.ofSource path) with
        | some (.ok header) =>
          header.imports.filterMap fun name => (options.importPath name).toOption.map toPlace
        | _ => []
      let made := (CommandLine.execute arguments tree).2.nodes.map Prod.fst
      options.sources.map toPlace ++ options.outDir.toList.map toPlace ++ imported ++ made

/-- Loads what stands at a place and at the places above it. -/
def load (tree : FileTree) (place : Location) : IO FileTree := do
  let mut loaded := tree
  for length in List.range place.length do
    let location := place.take (length + 1)
    let path := (← IO.currentDir) / (pathOf location).text
    if ← path.isDir then loaded := loaded.put location .directory
    else if ← path.pathExists then
      loaded := loaded.put location (.file (← IO.FS.readBinFile path))
  return loaded

/-- Loads until a command looks at nothing new. -/
partial def loadAll (arguments : List String) (visited : List Location) (tree : FileTree) :
    IO FileTree := do
  let fresh := (wantedPlaces arguments tree).eraseDups.filter fun place => !visited.contains place
  if fresh.isEmpty then return tree
  loadAll arguments (visited ++ fresh) (← fresh.foldlM load tree)

/-- Stores what a command made or changed. -/
def store (before after : FileTree) : IO Unit := do
  for (location, node) in after.nodes do
    if before.node? location != some node then
      let path := (← IO.currentDir) / (pathOf location).text
      match node with
      | .directory => IO.FS.createDirAll path
      | .file contents => IO.FS.writeBinFile path contents

/-- Carries out a command over the file system. -/
def execute (arguments : List String) : IO UInt32 := do
  let here ← IO.currentDir
  let workingDirectory := placeOf [] ⟨here.toString⟩
  let start ← load { workingDirectory := workingDirectory } workingDirectory
  let before ← loadAll arguments [] start
  let (report, after) := CommandLine.execute arguments before
  store before after
  IO.print report.output
  IO.eprint report.errors
  return UInt32.ofNat report.exitCode

end DriverIdl.Disk

/-- The program. -/
def main (arguments : List String) : IO UInt32 := DriverIdl.Disk.execute arguments
