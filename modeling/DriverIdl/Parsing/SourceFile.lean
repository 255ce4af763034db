import DriverIdl.Model.Containment
import DriverIdl.Parsing.InterfaceBody

/-!
# Source files

A source file names its package, imports other units and sequenceables, and declares types or one
interface.  A file without errors adds a unit to the program; a file with errors leaves the types of
the program as they were.
-/

namespace DriverIdl

namespace Parse

/-- Reads a word, a dotted name and the semicolon behind them, and answers the name and its place. -/
def announcement (keyword : TokenKind) (word expected : String) : Parse (String × Position) := do
  let _ ← expect keyword word
  let named ← dottedName expected
  let _ ← expect .semicolon "\";\""
  return named

/-- Places the unit in its package, which must suit the place of the file. -/
def enterPackage (options : Options) (package : String) (place : Position) : Parse Unit := do
  match options.checkPlacement package (← get).unit.path with
  | .ok () => pure ()
  | .error fault => report place (.placement fault)
  modify fun state =>
    let (namespaceId, namespaces) := state.program.namespaces.intern package
    { state with
      program := { state.program with namespaces := namespaces }
      unit := { state.unit with namespaceId := namespaceId, package := package } }

/-- Reads the package.  Faults of the name are recorded, and the name is used all the same. -/
def packageStatement (options : Options) : Parse Unit := do
  let (package, place) ← announcement .packageWord "\"package\"" "a package name"
  match Package.version package with
  | .ok version => modify fun state => { state with unit := { state.unit with version := version } }
  | .error fault => report place (.package fault)
  enterPackage options package place

/-- The key of a declared type. -/
def namedKey? (arena : TypeArena) (type : TypeId) : Option TypeKey := do
  return .named (← (arena.node type).namespaceId?) (← (arena.node type).name?)

/-- Makes a declared type visible in the unit. -/
def registerNamed (type : TypeId) : Parse Unit := do
  match namedKey? (← types) type with
  | some key => modify fun state => { state with unit := state.unit.register key type }
  | none => return ()

/-- Marks an interface as imported. -/
def markSerializable : TypeNode → TypeNode
  | .interface declared => .interface { declared with serializable := true }
  | other => other

/-- Imports with a name added at the end, or given another unit where it stands already. -/
def assignImport (fullName : String) (id : UnitId) :
    List (String × UnitId) → List (String × UnitId)
  | [] => [(fullName, id)]
  | (known, old) :: rest =>
    if known == fullName then (known, id) :: rest
    else (known, old) :: assignImport fullName id rest

/-- Adds a name to the imports of the unit. -/
def addImport (fullName : String) (id : UnitId) : Parse Unit :=
  modify fun state =>
    { state with unit := { state.unit with imports := assignImport fullName id state.unit.imports } }

/-- Makes what a unit declares visible, and marks its interface. -/
def seeUnit (imported : CompiledUnit) : Parse Unit := do
  imported.definitions.forM registerNamed
  if let some type := imported.interface then
    modify fun state =>
      { state with program :=
        { state.program with types := state.program.types.update type markSerializable } }
    registerNamed type

/-- Imports a unit, once. -/
def importUnit (fullName : String) (place : Position) : Parse Unit := do
  let state ← get
  if state.unit.imports.any fun (known, _) => known == fullName then
    report place (.importedTwice fullName)
  else match state.program.find? fullName with
    | none => report place (.notCompiled fullName)
    | some id =>
      seeUnit (state.program.units[id]?.getD default)
      addImport fullName id

/-- Reads an import. -/
def importStatement : Parse Unit := do
  let (fullName, place) ← announcement .importWord "\"import\"" "an imported unit name"
  importUnit fullName place

/-- The unit of a sequenceable. -/
def sequenceableUnit (path : Path) (package name : String) (namespaceId : NamespaceId)
    (type : TypeId) : CompiledUnit :=
  let blank : CompiledUnit :=
    { kind := .sequenceable, name := name, package := package, namespaceId := namespaceId,
      path := path }
  { blank.register (.named namespaceId name) type with definitions := [type] }

/-- Adds a new sequenceable, whose unit is set aside until the file is finished. -/
def addSequenceable (fullName package name : String) (namespaceId : NamespaceId) : Parse Unit :=
  modify fun state =>
    let (type, types) := state.program.types.alloc (.sequenceable ⟨name, namespaceId⟩)
    { state with
      program := { state.program with types := types }
      unit := state.unit.register (.named namespaceId name) type
      sequenceables := state.sequenceables ++
        [(fullName, sequenceableUnit state.unit.path package name namespaceId type)] }

/-- Makes a sequenceable visible.  One that an earlier unit declared already is shared. -/
def declareSequenceable (fullName : String) (place : Position) : Parse Unit := do
  match Package.splitFullName? fullName with
  | none => report place (.sequenceablePackage fullName)
  | some (package, name) =>
    let state ← get
    if (state.unit.imports.any fun (known, _) => known == fullName) ||
        state.sequenceables.any fun (known, _) => known == fullName then
      report place (.importedTwice fullName)
    else
      let (namespaceId, namespaces) := state.program.namespaces.intern package
      set { state with program := { state.program with namespaces := namespaces } }
      let key := TypeKey.named namespaceId name
      let shared := (state.program.find? fullName).bind fun id =>
        ((state.program.units[id]?.getD default).visibleType? key).map fun type => (id, type)
      match shared with
      | some (id, type) =>
        modify fun state => { state with unit := state.unit.register key type }
        addImport fullName id
      | none => addSequenceable fullName package name namespaceId

/-- Reads a sequenceable. -/
def sequenceableStatement : Parse Unit := do
  let (fullName, place) ← announcement .sequenceable "\"sequenceable\"" "a sequenceable name"
  declareSequenceable fullName place

/-- Reads a declaration. -/
def declaration (options : Options) : Parse Unit := do
  let (found, attributesPlace) ← optionalAttributes
  let token ← peek
  match token.kind with
  | .enum => enumDeclaration options found attributesPlace
  | .struct => recordDeclaration options found attributesPlace false
  | .union => recordDeclaration options found attributesPlace true
  | .interface => interfaceDeclaration options found
  | .packageWord | .importWord | .sequenceable =>
    report token.place (.misplacedHeader token)
    let _ ← next
    recoverStatement
  | _ => unexpected token "a declaration"

/-- Reads one more import or sequenceable; a broken one is skipped. -/
def headerRound (_ : Unit) : Parse (Unit ⊕ Unit) := do
  let statement ← match (← peek).kind with
    | .importWord => pure (some importStatement)
    | .sequenceable => pure (some sequenceableStatement)
    | _ => pure none
  match statement with
  | none => return .inr ()
  | some production =>
    if (← attempt production).isNone then recoverStatement
    return .inl ()

/-- Reads the imports and sequenceables. -/
def headerStatements : Parse Unit := loop headerRound ()

/-- Reads one more declaration; a broken one is skipped. -/
def declarationRound (options : Options) (_ : Unit) : Parse (Unit ⊕ Unit) := do
  if (← peek).kind = .eof then return .inr ()
  if (← attempt (declaration options)).isNone then recoverDeclaration
  return .inl ()

/-- Reads the declarations up to the end of the file. -/
def declarations (options : Options) : Parse Unit := loop (declarationRound options) ()

/-- Reads a whole file.  Without a package nothing else is read. -/
def file (options : Options) : Parse Unit := do
  packageStatement options
  headerStatements
  declarations options

/-- The kind of a unit follows from its interface. -/
def unitKind (arena : TypeArena) (unit : CompiledUnit) : UnitKind :=
  match unit.interface with
  | some type => if (arena.interface? type).any InterfaceType.isCallback then .callback else .interface
  | none => .types

/-- What is wrong with a file as a whole: it declares types or an interface, and not both.  A file
with other errors may declare nothing. -/
def wholeFault? (state : ParseState) : Option SourceFault :=
  match state.unit.interface with
  | some _ => if state.unit.definitions.isEmpty then none else some .typesBesideInterface
  | none =>
    if state.unit.definitions.isEmpty && state.errors == 0 then some .emptyFile else none

/-- Settles the kind of the unit and checks what its file declares as a whole. -/
def settleKind : Parse Unit := do
  let state ← get
  set { state with unit := { state.unit with kind := unitKind state.program.types state.unit } }
  match wholeFault? state with
  | some fault => report ⟨1, 1⟩ fault
  | none => return ()

/-- Checks containment in a unit that has no error so far. -/
def verifyUnit : Parse Unit := do
  let state ← get
  if state.errors == 0 then
    let (passed, diagnostics) :=
      Containment.check state.program.types state.unit state.diagnostics
    modify fun state =>
      { state with diagnostics := diagnostics, errors := if passed then 0 else 1 }

/-- Adds a sequenceable of the file to the program. -/
def publishSequenceable (entry : String × CompiledUnit) : Parse Unit := do
  let (fullName, declared) := entry
  let id ← modifyGet fun state =>
    let (id, program) := state.program.add declared
    let listed := match declared.definitions.head? with
      | some type =>
        { program with
          namespaces := program.namespaces.addSequenceable declared.namespaceId type }
      | none => program
    (id, { state with program := listed })
  addImport fullName id

/-- Adds the unit of a file without errors to the program. -/
def publish : Parse Unit := do
  (← get).sequenceables.forM publishSequenceable
  modify fun state =>
    let namespaces := match state.unit.interface with
      | some type => state.program.namespaces.addInterface state.unit.namespaceId type
      | none => state.program.namespaces
    { state with program :=
      ({ state.program with namespaces := namespaces }.add state.unit).2 }

/-- Finishes a file and answers whether its unit was added. -/
def finishUnit : Parse Bool := do
  settleKind
  verifyUnit
  if (← get).errors == 0 then
    publish
    return true
  else
    return false

end Parse

/-- What came of parsing a file. -/
structure ParseOutcome where
  accepted : Bool
  program : Program
  diagnostics : List Diagnostic
  deriving Inhabited

/-- The first block comment in front of all other tokens; generated files carry it. -/
def leadingLicense? (tokens : List Token) : Option String :=
  ((tokens.takeWhile Token.isComment).find? fun token => token.kind == .blockComment).map Token.text

/-- The state in which a file is parsed. -/
def ParseState.start (program : Program) (diagnostics : List Diagnostic) (path : Path)
    (source : String) : ParseState :=
  let stream := TokenStream.ofSource source
  { tokens := stream.tokens.filter fun token => !token.isComment
    finish := stream.finish
    program := program
    unit :=
      { kind := .types, name := path.stem?.getD "", package := "",
        namespaceId := NamespaceTree.root, path := path,
        license := leadingLicense? stream.tokens }
    diagnostics := diagnostics }

/-- Parses a source text into a program.  The diagnostics of the file follow the earlier ones, and
a file with errors leaves no types behind. -/
def Program.parseSource (options : Options) (program : Program) (diagnostics : List Diagnostic)
    (path : Path) (source : String) : ParseOutcome :=
  let start := ParseState.start program diagnostics path source
  let production : Parse Bool := do
    let _ ← Parse.attempt (Parse.file options)
    Parse.finishUnit
  let (accepted, state) := match production start with
    | .ok accepted state => (accepted, state)
    | .error _ state => (false, state)
  let kept :=
    if accepted then state.program
    else { state.program with types := state.program.types.truncate program.types.size }
  ⟨accepted, kept, state.diagnostics⟩

/-- Parses a file that may be unreadable. -/
def Program.parseFile (options : Options) (program : Program) (diagnostics : List Diagnostic)
    (path : Path) (content : Except FileFault String) : ParseOutcome :=
  match content with
  | .ok source => program.parseSource options diagnostics path source
  | .error fault => ⟨false, program, diagnostics ++ [⟨path, ⟨0, 0⟩, .unreadable fault⟩]⟩

end DriverIdl
