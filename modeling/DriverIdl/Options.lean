import DriverIdl.Package

/-!
# Options of a run

What a run compiles and writes: sources, package roots, target language and build.  Package roots
map package names to directories, which is how imports are found and misplaced files noticed.
-/

namespace DriverIdl

/-- The languages that code is generated in. -/
inductive Language where
  | c | cpp | java
  deriving DecidableEq, Inhabited

/-- The name of a language. -/
def Language.text : Language → String
  | .c => "C"
  | .cpp => "C++"
  | .java => "Java"

/-- Which side of a connection is generated. -/
inductive BuildTarget where
  | client | server | all
  deriving DecidableEq, Inhabited

/-- The name of a side. -/
def BuildTarget.name : BuildTarget → String
  | .client => "Client"
  | .server => "Server"
  | .all => "All"

/-- How units are printed. -/
inductive DumpFormat where
  | text | json
  deriving DecidableEq, Inhabited

/-- The name of a format. -/
def DumpFormat.name : DumpFormat → String
  | .text => "Text"
  | .json => "Json"

/-- A package prefix and the directory it maps to. -/
structure PackageRoot where
  package : String
  path : Path
  deriving DecidableEq, Inhabited

/-- Why the text of a single option is refused. -/
inductive OptionTextFault where
  | buildTarget (text : String)
  | dumpFormat (text : String)
  | rootShape (text : String)
  | rootPackage (package : String)
  | rootPath (text : String)
  deriving DecidableEq, Inhabited

/-- The sentence that tells a fault. -/
def OptionTextFault.message : OptionTextFault → String
  | .buildTarget text =>
    "unknown build target " ++ Text.quote text ++ ", expected client, server or all"
  | .dumpFormat text => "unknown dump format " ++ Text.quote text ++ ", expected text or json"
  | .rootShape text => "root mapping " ++ Text.quote text ++ " must look like <package>:<path>"
  | .rootPackage package => "invalid package " ++ Text.quote package ++ " in root mapping"
  | .rootPath text => "root mapping " ++ Text.quote text ++ " has an empty path"

/-- Reads a build target. -/
def BuildTarget.parse : String → Except OptionTextFault BuildTarget
  | "client" => .ok .client
  | "server" => .ok .server
  | "all" => .ok .all
  | other => .error (.buildTarget other)

/-- Reads a dump format. -/
def DumpFormat.parse : String → Except OptionTextFault DumpFormat
  | "text" => .ok .text
  | "json" => .ok .json
  | other => .error (.dumpFormat other)

/-- Characters of package segments and module names. -/
def isWordChar (character : Char) : Bool := character.isAlphanum || character == '_'

/-- Reads a root mapping, `package:path`. -/
def PackageRoot.parse (text : String) : Except OptionTextFault PackageRoot :=
  let characters := text.toList
  match characters.dropWhile (· != ':') with
  | [] => .error (.rootShape text)
  | _ :: path =>
    let package := characters.takeWhile (· != ':')
    let valid := (Text.pieces '.' package).all fun segment =>
      !segment.isEmpty && segment.all isWordChar
    if !valid then .error (.rootPackage (String.ofList package))
    else if path.isEmpty then .error (.rootPath text)
    else .ok ⟨String.ofList package, ⟨String.ofList path⟩⟩

/-- Why options do not make a run. -/
inductive OptionsFault where
  | severalLanguages
  | noSources
  | mappedTwice (package : String)
  | languageRequired
  | kernelLanguage (language : Language)
  | serverInJava
  | outputRequired
  | moduleName (name : String)
  | noLanguage
  | noOutput
  deriving DecidableEq, Inhabited

/-- The sentence that tells a fault. -/
def OptionsFault.message : OptionsFault → String
  | .severalLanguages => "only one of --gen-c, --gen-cpp and --gen-java may be given"
  | .noSources => "no source files given"
  | .mappedTwice package => "package " ++ Text.quote package ++ " is mapped more than once"
  | .languageRequired => "one of --gen-c, --gen-cpp or --gen-java is required"
  | .kernelLanguage language => "--kernel is only supported for C, not " ++ language.text
  | .serverInJava => "Java generation only supports the client build target"
  | .outputRequired => "an output directory (-d) is required"
  | .moduleName name => "invalid module name " ++ Text.quote name
  | .noLanguage => "no target language selected"
  | .noOutput => "no output directory given (-d)"

/-- The language that at most one of three switches chooses. -/
def Language.ofFlags (c cpp java : Bool) : Except OptionsFault (Option Language) :=
  match c, cpp, java with
  | false, false, false => .ok none
  | true, false, false => .ok (some .c)
  | false, true, false => .ok (some .cpp)
  | false, false, true => .ok (some .java)
  | _, _, _ => .error .severalLanguages

/-- Why an import does not name a file. -/
inductive ImportFault where
  | malformed (fullName : String)
  | uncovered (package fullName : String)
  deriving DecidableEq, Inhabited

/-- The sentence that tells a fault. -/
def ImportFault.message : ImportFault → String
  | .malformed fullName => "invalid import " ++ Text.quote fullName
  | .uncovered package fullName =>
    "no root mapping (-r) covers package " ++ Text.quote package ++ " of import " ++
      Text.quote fullName

/-- Why a file lies in the wrong place for its package. -/
inductive PlacementFault where
  | uncovered (package : String)
  | misplaced (package : String) (file expected : Path)
  deriving DecidableEq, Inhabited

/-- The sentence that tells a fault. -/
def PlacementFault.message : PlacementFault → String
  | .uncovered package => "no root mapping (-r) covers package " ++ Text.quote package
  | .misplaced package file expected =>
    "package " ++ Text.quote package ++ " does not match the file path " ++ Text.quote file.text ++
      ", expected it under " ++ Text.quote expected.text

/-- Everything that one run needs to know. -/
structure Options where
  sources : List Path := []
  outDir : Option Path := none
  roots : List PackageRoot := []
  language : Option Language := none
  kernel : Bool := false
  buildTarget : BuildTarget := .all
  moduleName : Option String := none
  genHash : Bool := false
  dumpUnits : Bool := false
  dumpFormat : DumpFormat := .text
  deriving Inhabited

namespace Options

/-- The first root whose package an earlier root maps too. -/
def repeatedRoot? : List PackageRoot → List PackageRoot → Option PackageRoot
  | _, [] => none
  | earlier, root :: rest =>
    if earlier.any fun known => known.package == root.package then some root
    else repeatedRoot? (earlier ++ [root]) rest

/-- Checks the choice of a language. -/
def validateLanguage (options : Options) : Except OptionsFault Unit :=
  match options.language with
  | none =>
    if options.outDir.isSome || !options.dumpUnits then .error .languageRequired else .ok ()
  | some language =>
    if options.kernel && language != .c then .error (.kernelLanguage language)
    else if language == .java && options.buildTarget == .server then .error .serverInJava
    else .ok ()

/-- Checks that the options make a run; the first fault is reported. -/
def validate (options : Options) : Except OptionsFault Unit := do
  if options.sources.isEmpty then throw .noSources
  if options.genHash then return ()
  if let some root := repeatedRoot? [] options.roots then throw (.mappedTwice root.package)
  options.validateLanguage
  if options.language.isSome && options.outDir.isNone && !options.dumpUnits then
    throw .outputRequired
  if let some name := options.moduleName then
    if name.toList.isEmpty || !name.toList.all isWordChar then throw (.moduleName name)

/-- Whether C code for a kernel is generated. -/
def isKernelC (options : Options) : Bool := options.kernel && options.language == some .c

/-- Whether the run writes files. -/
def generates (options : Options) : Bool := options.language.isSome && options.outDir.isSome

/-- The root with the longest package that covers `package`; of equal ones the last. -/
def rootFor? (options : Options) (package : String) : Option PackageRoot :=
  (options.roots.filter fun root => Package.isWithin package root.package).foldl
    (fun best root => match best with
      | some longest =>
        if longest.package.utf8ByteSize ≤ root.package.utf8ByteSize then some root else best
      | none => some root)
    none

/-- The path of a package below the directory of a root that covers it. -/
def relativeDir (package : String) (root : PackageRoot) : Path :=
  Package.path (String.ofList (package.toList.drop root.package.length))

/-- The directory of a package. -/
def packageDir? (options : Options) (package : String) : Option Path :=
  (options.rootFor? package).map fun root => root.path.join (relativeDir package root)

/-- The file that holds an imported unit. -/
def importPath (options : Options) (fullName : String) : Except ImportFault Path :=
  match Package.splitFullName? fullName with
  | none => .error (.malformed fullName)
  | some (package, name) =>
    match options.packageDir? package with
    | none => .error (.uncovered package fullName)
    | some dir => .ok (dir.join ⟨name ++ ".idl"⟩)

/-- Checks that a file lies in the directory of its package.  Without roots every place is right. -/
def checkPlacement (options : Options) (package : String) (file : Path) :
    Except PlacementFault Unit :=
  if options.roots.isEmpty then .ok ()
  else match options.rootFor? package with
    | none => .error (.uncovered package)
    | some root =>
      let expected := relativeDir package root
      if expected.components.isSuffixOf file.parentComponents then .ok ()
      else .error (.misplaced package file (root.path.join expected))

end Options

end DriverIdl
