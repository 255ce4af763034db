import DriverIdl.Proofs.Model.Program
import DriverIdl.Proofs.Parsing.ArenaChange
import DriverIdl.Proofs.Parsing.Runs

/-!
# What header statements build

A package names the namespace of the unit.  An import makes the declared types of a unit visible and
marks its interface, which is the only change that a file makes to a type of another file; the mark
is set as soon as the import is read, whatever comes behind it.  A sequenceable is a type of its own
unit, unless a unit of that name offers one already.
-/

namespace DriverIdl

namespace Parse

open ParseState

variable {mark : Nat} {known : Prop} {before after : ParseState} {options : Options}

section Announcement

variable {keyword : TokenKind} {word expected name : String}

/-- A word, a dotted name and a semicolon were taken. -/
structure Announced (keyword : TokenKind) (name : String) (before after : ParseState) : Prop where
  same : SameButTokens before after
  statement : ∃ word rest semicolon, before.tokens = word :: rest ∧ word.kind = keyword ∧
    Header.dottedName rest = (some name, semicolon :: after.tokens) ∧ semicolon.kind = .semicolon

theorem announcement_ok {result : String × Position} (notEnd : keyword ≠ .eof)
    (run : announcement keyword word expected before = .ok result after) :
    Announced keyword result.1 before after := by
  obtain ⟨first, worded, wordRun, rest⟩ := bind_eq_ok.mp run
  obtain ⟨named, read, nameRun, others⟩ := bind_eq_ok.mp rest
  obtain ⟨semicolon, closed, semicolonRun, last⟩ := bind_eq_ok.mp others
  obtain ⟨takesWord, isWord⟩ := expect_ok notEnd wordRun
  obtain ⟨reads, same⟩ := dottedName_ok nameRun
  obtain ⟨takesSemicolon, isSemicolon⟩ := expect_ok (by decide) semicolonRun
  cases last
  refine ⟨(takesWord.same.trans same).trans takesSemicolon.same, first, worded.tokens, semicolon,
    takesWord.tokens, isWord, ?_, isSemicolon⟩
  rw [reads, takesSemicolon.tokens]

theorem Ensures.announcement (notEnd : keyword ≠ .eof) :
    Ensures mark known before (announcement keyword word expected) fun result after =>
      Announced keyword result.1 before after := by
  apply ofRun _ (announcement_ok notEnd)
  apply bind (expect notEnd)
  intro _ worded _ _
  apply bind (dottedName expected)
  intro _ named _ _
  apply bind (expect (by decide))
  intro _ closed _ _
  exact pure fun _ _ => trivial

namespace Announced

variable (announced : Announced keyword name before after)

include announced

theorem announces : Announces keyword name before.tokens := by
  obtain ⟨word, rest, semicolon, tokens, isWord, reads, isSemicolon⟩ := announced.statement
  exact ⟨word, rest, semicolon, after.tokens, tokens ▸ List.suffix_refl _, isWord, reads, isSemicolon⟩

/-- What was taken: the word, dots and identifiers, and the semicolon. -/
theorem taken : ∃ word others, before.tokens = word :: others ++ after.tokens ∧ word.kind = keyword ∧
    ∀ token ∈ others, token.kind.startsDeclaration = false := by
  obtain ⟨word, rest, semicolon, tokens, isWord, reads, isSemicolon⟩ := announced.statement
  obtain ⟨name, split, kinds, -⟩ := Header.dottedName_eq_some reads
  refine ⟨word, name ++ [semicolon], by simp [tokens, split], isWord, ?_⟩
  intro token listed
  rcases List.mem_append.mp listed with inName | last
  · rcases kinds token inName with isKind | isKind <;> rw [isKind] <;> rfl
  · rw [List.mem_singleton.mp last, isSemicolon]
    rfl

theorem suffix : after.tokens <:+ before.tokens := by
  obtain ⟨word, others, tokens, -⟩ := announced.taken
  exact ⟨word :: others, tokens.symm⟩

theorem length_lt : after.tokens.length < before.tokens.length := by
  obtain ⟨word, others, tokens, -⟩ := announced.taken
  simp only [tokens, List.length_append, List.length_cons]
  omega

theorem dotted (spelled : ∀ token ∈ before.tokens, token.WellSpelled) : Package.Dotted name := by
  obtain ⟨word, rest, semicolon, tokens, -, reads, -⟩ := announced.statement
  obtain ⟨-, -, -, dotted⟩ := Header.dottedName_eq_some reads
  apply dotted
  intro token listed
  exact spelled token (by simp [tokens, listed])

theorem spelledDeclarations_eq
    (notDeclaring : keyword ∉ [TokenKind.enum, .struct, .union, .interface]) :
    spelledDeclarations before.tokens = spelledDeclarations after.tokens := by
  obtain ⟨word, others, tokens, isWord, plain⟩ := announced.taken
  rw [tokens, List.cons_append, spelledDeclarations, isWord, if_neg notDeclaring,
    spelledDeclarations_append plain]

theorem sound (sound : before.Sound) : after.Sound := by
  rw [announced.same]
  exact sound_of_tokens sound announced.suffix

end Announced

end Announcement

section Package

/-- The state with the package of the file. -/
def withPackage (state : ParseState) (package : String) (version : Version) : ParseState :=
  { state with
    program :=
      { state.program with namespaces := (state.program.namespaces.intern package).2 }
    unit :=
      { state.unit with
        version := version
        namespaceId := (state.program.namespaces.intern package).1
        package := package } }

theorem advances_withPackage (state : ParseState) {package : String} (dotted : Package.Dotted package)
    (version : Version) : Advances mark state (withPackage state package version) where
  tokens := List.suffix_refl _
  faults := ⟨[], by simp [withPackage]⟩
  units := rfl
  namespaces wellFormed := (state.program.namespaces.intern_spec wellFormed dotted).1
  listed := state.program.namespaces.listed_intern package
  inside inside := inside
  containers _ listed _ := .inl listed
  nodes _ _ := .inl rfl
  path := rfl
  name := rfl

/-- The namespace of a package has the name of the package. -/
theorem fullName_intern {namespaces : NamespaceTree} {package : String}
    (wellFormed : namespaces.WellFormed) (dotted : Package.Dotted package) :
    (namespaces.intern package).2.fullName (namespaces.intern package).1 = package := by
  obtain ⟨-, -, path⟩ := namespaces.intern_spec wellFormed dotted
  rw [NamespaceTree.fullName, path, Package.intercalate_segments dotted]

theorem sound_withPackage {state : ParseState} {package : String} (sound : state.Sound)
    (dotted : Package.Dotted package) (version : Version) :
    (withPackage state package version).Sound := by
  obtain ⟨grown, inside, -⟩ := state.program.namespaces.intern_spec sound.namespaces dotted
  exact
    { sound with
      namespaces := grown.wellFormed sound.namespaces
      package_inside := inside
      package_name := fullName_intern sound.namespaces dotted }

theorem Ensures.enterPackage {package : String} {place : Position}
    (dotted : Package.Dotted package) :
    Ensures mark known before (enterPackage options package place) fun _ after =>
      after = withPackage before package before.unit.version := by
  apply bindOk (get_run before)
  cases options.checkPlacement package before.unit.path with
  | ok placed =>
      exact modify (fun _ => advances_withPackage before dotted _) fun _ sound =>
        sound_withPackage sound dotted _
  | error fault =>
      apply bindReport
      intro reported
      apply (modify (fun _ => advances_withPackage reported dotted _) False.elim).imp
      exact fun _ _ impossible => impossible.elim

theorem Ensures.packageStatement :
    Ensures mark known before (packageStatement options) fun _ after =>
      ∃ package version read, Announced .packageWord package before read ∧
        after = withPackage read package version := by
  intro since
  refine bind (announcement (by decide)) ?_ since
  rintro ⟨package, place⟩ read run _
  have dotted : Package.Dotted package := (announcement_ok (by decide) run).dotted since.spelled
  simp only
  cases versioned : Package.version package with
  | error fault =>
      apply bindReport
      intro reported
      exact (enterPackage dotted).imp fun _ _ impossible => impossible.elim
  | ok version =>
      apply bind (modify (fun _ => .of_unit read (by rfl) (by rfl) (by rfl)) fun _ sound =>
        .of_unit sound (by exact sound.table) (by rfl) (by rfl))
      intro _ state _ _
      apply (enterPackage dotted).imp
      rintro _ after ⟨⟨-, announced⟩, rfl⟩ - rfl
      exact ⟨package, version, read, announced, rfl⟩

end Package

section Import

theorem namedKey?_eq_some {arena : TypeArena} {type : TypeId} {key : TypeKey} :
    namedKey? arena type = some key ↔
      ∃ namespaceId name, key = .named namespaceId name ∧ key.Denotes (arena.node type) := by
  simp only [namedKey?, Option.bind_eq_bind, Option.pure_def, Option.bind_eq_some_iff,
    Option.some.injEq]
  constructor
  · rintro ⟨namespaceId, isNamespace, name, isName, rfl⟩
    exact ⟨namespaceId, name, rfl, isNamespace, isName⟩
  · rintro ⟨namespaceId, name, rfl, isNamespace, isName⟩
    exact ⟨namespaceId, isNamespace, name, isName, rfl⟩

/-- A type with a name is one of the arena. -/
theorem lt_size_of_namedKey? {arena : TypeArena} {type : TypeId} {key : TypeKey}
    (named : namedKey? arena type = some key) : type < arena.size := by
  by_contra outside
  simp [namedKey?, TypeArena.node_of_size_le (Nat.le_of_not_lt outside),
    TypeNode.namespaceId?] at named

/-- The state in which more types are visible. -/
def seeing (state : ParseState) (added : List (TypeKey × TypeId)) : ParseState :=
  { state with unit := { state.unit with table := state.unit.table ++ added } }

theorem seeing_nil (state : ParseState) : seeing state [] = state := by
  simp [seeing]

theorem seeing_seeing (state : ParseState) (first others : List (TypeKey × TypeId)) :
    seeing (seeing state first) others = seeing state (first ++ others) := by
  simp [seeing]

/-- A type becomes visible under a key that is free, at the end of the table. -/
theorem tableWith_eq (table : List (TypeKey × TypeId)) (key : TypeKey) (type : TypeId) :
    ∃ added, CompiledUnit.tableWith table key type = table ++ added ∧
      ∀ entry ∈ added, entry = (key, type) := by
  unfold CompiledUnit.tableWith
  split
  · exact ⟨[], by simp, by simp⟩
  · exact ⟨[(key, type)], rfl, by simp⟩

theorem registerNamed_run (type : TypeId) (state : ParseState) : ∃ added,
    registerNamed type state = .ok () (seeing state added) ∧
      ∀ entry ∈ added, entry.2 = type ∧ namedKey? state.types entry.2 = some entry.1 := by
  cases named : namedKey? state.types type with
  | none =>
      refine ⟨[], ?_, by simp⟩
      simp only [registerNamed, Bind.bind, EStateM.bind, types_run, named, seeing_nil]
      rfl
  | some key =>
      obtain ⟨added, registered, keys⟩ := tableWith_eq state.unit.table key type
      refine ⟨added, ?_, fun entry listed => ?_⟩
      · simp only [registerNamed, Bind.bind, EStateM.bind, types_run, named, seeing, ← registered]
        rfl
      · rw [keys entry listed]
        exact ⟨rfl, named⟩

theorem forM_registerNamed_run (types : List TypeId) (state : ParseState) : ∃ added,
    types.forM registerNamed state = .ok () (seeing state added) ∧
      ∀ entry ∈ added, entry.2 ∈ types ∧ namedKey? state.types entry.2 = some entry.1 := by
  induction types generalizing state with
  | nil => exact ⟨[], by simp [Pure.pure, EStateM.pure, seeing_nil], by simp⟩
  | cons type rest ih =>
      obtain ⟨first, firstRun, firstKeys⟩ := registerNamed_run type state
      obtain ⟨others, othersRun, othersKeys⟩ := ih (seeing state first)
      have opened : (type :: rest).forM registerNamed state =
          EStateM.bind (registerNamed type) (fun _ => rest.forM registerNamed) state := rfl
      refine ⟨first ++ others, ?_, ?_⟩
      · simp only [opened, EStateM.bind, firstRun, othersRun, seeing_seeing]
      · intro entry listed
        rcases List.mem_append.mp listed with early | late
        · obtain ⟨same, named⟩ := firstKeys entry early
          exact ⟨by simp [same], named⟩
        · obtain ⟨isListed, named⟩ := othersKeys entry late
          exact ⟨by simp [isListed], named⟩

theorem assignImport_of_new {name : String} {id : UnitId} {imports : List (String × UnitId)}
    (new : ∀ entry ∈ imports, entry.1 ≠ name) :
    assignImport name id imports = imports ++ [(name, id)] := by
  induction imports with
  | nil => rfl
  | cons entry rest ih =>
      have different := new entry (by simp)
      rw [assignImport, if_neg (by simpa using different),
        ih fun other listed => new other (by simp [listed]), List.cons_append]

theorem namedKey?_update {arena : TypeArena} {type other : TypeId} :
    namedKey? (arena.update type markSerializable) other = namedKey? arena other := by
  have same : ((arena.update type markSerializable).node other).outline =
      (arena.node other).outline := by
    rcases Nat.lt_or_ge other arena.size with inside | outside
    · exact (TypeArena.Extends.update arena type markSerializable_outline).outline_eq other inside
    · rw [TypeArena.node_of_size_le outside, TypeArena.node_of_size_le (by simpa using outside)]
  simp only [namedKey?, TypeNode.namespaceId?_congr same, TypeNode.name?_congr same]

/-- The types with the mark of an imported interface. -/
def marked (arena : TypeArena) : Option TypeId → TypeArena
  | some type => arena.update type markSerializable
  | none => arena

/-- The state in which the interface of a unit is marked and more types are visible. -/
def seeUnitWith (state : ParseState) (interface : Option TypeId) (added : List (TypeKey × TypeId)) :
    ParseState :=
  seeing { state with program := { state.program with types := marked state.types interface } } added

/-- What an imported unit declares is visible. -/
theorem seeUnit_run (imported : CompiledUnit) (state : ParseState) : ∃ added,
    seeUnit imported state = .ok () (seeUnitWith state imported.interface added) ∧
      ∀ entry ∈ added, (entry.2 ∈ imported.definitions ∨ imported.interface = some entry.2) ∧
        namedKey? state.types entry.2 = some entry.1 := by
  obtain ⟨first, firstRun, firstKeys⟩ := forM_registerNamed_run imported.definitions state
  cases declared : imported.interface with
  | none =>
      refine ⟨first, ?_, fun entry listed => ?_⟩
      · simp only [seeUnit, Bind.bind, EStateM.bind, firstRun, declared]
        rfl
      · obtain ⟨isListed, named⟩ := firstKeys entry listed
        exact ⟨.inl isListed, named⟩
  | some type =>
      obtain ⟨last, lastRun, lastKeys⟩ :=
        registerNamed_run type (seeUnitWith state (some type) first)
      refine ⟨first ++ last, ?_, fun entry listed => ?_⟩
      · simp only [seeUnit, Bind.bind, EStateM.bind, firstRun, declared]
        rw [seeUnitWith, ← seeing_seeing]
        exact lastRun
      · rcases List.mem_append.mp listed with early | late
        · obtain ⟨isListed, named⟩ := firstKeys entry early
          exact ⟨.inl isListed, named⟩
        · obtain ⟨same, named⟩ := lastKeys entry late
          rw [← namedKey?_update]
          exact ⟨.inr (by rw [same]), named⟩

/-- The unit with a number. -/
def unitAt (state : ParseState) (id : UnitId) : CompiledUnit :=
  state.program.units[id]?.getD default

/-- A unit is imported: its interface is marked and what it declares is visible. -/
structure Imports (name : String) (id : UnitId) (before after : ParseState) : Prop where
  new : ∀ entry ∈ before.unit.imports, entry.1 ≠ name
  found : before.program.find? name = some id
  types : after.types = marked before.types (unitAt before id).interface
  table : ∃ added, after.unit.table = before.unit.table ++ added ∧
    ∀ entry ∈ added,
      (entry.2 ∈ (unitAt before id).definitions ∨ (unitAt before id).interface = some entry.2) ∧
        namedKey? before.types entry.2 = some entry.1
  state : after = { before with
    program := { before.program with types := after.types }
    unit := { before.unit with
      table := after.unit.table, imports := before.unit.imports ++ [(name, id)] } }

/-- Why a state refuses an import. -/
inductive ImportFault (state : ParseState) (name : String) : SourceFault → Prop where
  | twice : ImportFault state name (.importedTwice name)
  | notCompiled (absent : state.program.find? name = none) :
      ImportFault state name (.notCompiled name)

theorem ImportFault.semantic {state : ParseState} {name : String} {fault : SourceFault}
    (refused : ImportFault state name fault) : fault.kind = .semantic := by
  cases refused <;> rfl

theorem importUnit_cases (name : String) (place : Position) (state : ParseState) :
    (∃ fault, ImportFault state name fault ∧
        importUnit name place state = report place fault state) ∨
      ∃ id after, importUnit name place state = .ok () after ∧ Imports name id state after := by
  simp only [importUnit, Bind.bind, EStateM.bind, get_run]
  split
  · exact .inl ⟨_, .twice, rfl⟩
  · rename_i unlisted
    have new : ∀ entry ∈ state.unit.imports, entry.1 ≠ name := by
      rintro entry listed rfl
      exact unlisted (List.any_eq_true.mpr ⟨entry, listed, by simp⟩)
    cases found : state.program.find? name with
    | none => exact .inl ⟨_, .notCompiled found, rfl⟩
    | some id =>
        obtain ⟨added, seen, keys⟩ := seeUnit_run (unitAt state id) state
        have assigned := @assignImport_of_new name id _ new
        let visible := seeUnitWith state (unitAt state id).interface added
        refine .inr ⟨id, { visible with
          unit := { visible.unit with imports := state.unit.imports ++ [(name, id)] } }, ?_, ?_⟩
        · rw [unitAt] at seen
          simp only [EStateM.bind, seen, addImport, ← assigned]
          rfl
        · exact ⟨new, found, rfl, ⟨added, rfl, keys⟩, rfl⟩

namespace Imports

variable {name : String} {id : UnitId} {read : ParseState}

theorem types_extends (imports : Imports name id before after) :
    before.types.Extends after.types := by
  rw [imports.types]
  cases (unitAt before id).interface with
  | none => exact .refl _
  | some type => exact .update _ _ markSerializable_outline

/-- Only the interface of the imported unit changes, and only by the mark. -/
theorem advances (announced : Announced .importWord name before read)
    (imports : Imports name id read after) (inside : mark ≤ before.types.size) :
    Advances mark before after where
  tokens := by
    rw [imports.state]
    exact announced.suffix
  faults := ⟨[], by rw [imports.state, announced.same]; simp⟩
  units := by rw [imports.state, announced.same]
  namespaces _ := by
    rw [imports.state, announced.same]
    exact .refl _
  listed _ := by rw [imports.state, announced.same]
  inside inside := by
    have grown := imports.types_extends.size_le
    rw [announced.same] at grown
    exact Nat.le_trans inside grown
  containers entry listed composite := by
    have sameTable : read.unit.table = before.unit.table := by rw [announced.same]
    obtain ⟨added, table, keys⟩ := imports.table
    rw [table] at listed
    rcases List.mem_append.mp listed with earlier | new
    · exact .inl (sameTable ▸ earlier)
    · obtain ⟨namespaceId, name, isNamed, -⟩ := namedKey?_eq_some.mp (keys entry new).2
      rw [isNamed] at composite
      cases composite
  nodes type below := by
    have same : read.types = before.types := by rw [announced.same]
    have units : read.program = before.program := by rw [announced.same]
    rw [imports.types, same]
    cases declared : (unitAt read id).interface with
    | none => exact .inl rfl
    | some marked =>
        by_cases isMarked : type = marked
        · subst isMarked
          refine .inr ⟨⟨name, id, announced.announces, ?_, ?_⟩, ?_⟩
          · rw [← units]
            exact imports.found
          · rw [← units]
            exact declared
          · exact TypeArena.node_update_self (Nat.lt_of_lt_of_le below inside) _
        · exact .inl (TypeArena.node_update_of_ne isMarked _)
  path := by rw [imports.state, announced.same]
  name := by rw [imports.state, announced.same]

theorem sound (imports : Imports name id before after) (sound : before.Sound) : after.Sound := by
  have grown := imports.types_extends
  obtain ⟨added, table, keys⟩ := imports.table
  refine
    { spelled := ?_
      types := ?_
      table := ?_
      units := ?_
      namespaces := ?_
      package_inside := ?_
      package_name := ?_ }
  · rw [imports.state]
    exact sound.spelled
  · rw [imports.types]
    cases (unitAt before id).interface with
    | none => exact sound.types
    | some type =>
        apply sound.types.update type markSerializable_outline
        rw [markSerializable_parts]
        exact sound.types.parts_lt type
  · rw [table]
    intro entry listed
    rcases List.mem_append.mp listed with early | late
    · exact sound.table.extend grown entry early
    · have named := (keys entry late).2
      have inside := lt_size_of_namedKey? named
      obtain ⟨-, -, -, denotes⟩ := namedKey?_eq_some.mp named
      exact ⟨Nat.lt_of_lt_of_le inside grown.size_le, denotes.congr (grown.outline_eq _ inside)⟩
  · rw [imports.state]
    intro unit listed
    exact (sound.units unit listed).extend grown
  · rw [imports.state]
    exact sound.namespaces
  · rw [imports.state]
    exact sound.package_inside
  · rw [imports.state]
    exact sound.package_name

end Imports

theorem Ensures.importStatement :
    Ensures mark known before importStatement fun _ after =>
      ∃ name id read, Announced .importWord name before read ∧ Imports name id read after := by
  intro since
  have reads : Ensures mark known before
      (Parse.announcement .importWord "\"import\"" "an imported unit name") _ :=
    announcement (by decide)
  have opened : Parse.importStatement before = EStateM.bind
      (Parse.announcement .importWord "\"import\"" "an imported unit name")
      (fun named => importUnit named.1 named.2) before := rfl
  rw [opened, EStateM.bind]
  cases run : Parse.announcement .importWord "\"import\"" "an imported unit name" before with
  | error fault after => exact reads.error run since
  | ok named read =>
      obtain ⟨advanced, -⟩ := reads.ok run since
      have announced := announcement_ok (by decide) run
      -- The run is judged from the import on: what it marks is announced by the tokens it takes.
      rcases importUnit_cases named.1 named.2 read with ⟨fault, -, reported⟩
        | ⟨id, after, imported, imports⟩
      · simp only [reported]
        have reports : Ensures mark known read (Parse.report named.2 fault) _ := report named.2 fault
        obtain ⟨reportAdvanced, impossible⟩ := reports.ok rfl (advanced.since since)
        refine ⟨advanced.trans reportAdvanced, fun clean assumed sound => ?_⟩
        exact (impossible clean assumed (announced.sound sound)).2.elim
      · simp only [imported]
        refine ⟨imports.advances announced since.inside, fun _ _ sound => ?_⟩
        exact ⟨imports.sound (announced.sound sound), named.1, id, read, announced, imports⟩

end Import

section Sequenceable

/-- A sequenceable becomes visible in the unit, in the namespace of its package. -/
structure Sees (full package name : String) (type : TypeId) (before after : ParseState) : Prop where
  split : Package.splitFullName? full = some (package, name)
  notImported : ∀ entry ∈ before.unit.imports, entry.1 ≠ full
  notSetAside : ∀ entry ∈ before.sequenceables, entry.1 ≠ full
  table : ∃ added, after.unit.table = before.unit.table ++ added ∧
    ∀ entry ∈ added, entry = (.named (before.program.namespaces.intern package).1 name, type)
  unit : after.unit =
    { before.unit with table := after.unit.table, imports := after.unit.imports }
  state : after = { before with
    program := { before.program with
      types := after.types, namespaces := (before.program.namespaces.intern package).2 }
    unit := after.unit
    sequenceables := after.sequenceables }

/-- The sequenceable is one that a unit of its name offers. -/
structure Shares (full package name : String) (id : UnitId) (type : TypeId)
    (before after : ParseState) : Prop extends Sees full package name type before after where
  found : before.program.find? full = some id
  visible : (unitAt before id).visibleType?
    (.named (before.program.namespaces.intern package).1 name) = some type
  types : after.types = before.types
  imports : after.unit.imports = before.unit.imports ++ [(full, id)]
  sequenceables : after.sequenceables = before.sequenceables

/-- No unit offers the sequenceable, so it is a new type, set aside in a unit of its own. -/
structure Adds (full package name : String) (before after : ParseState) : Prop extends
    Sees full package name before.types.size before after where
  notOffered : ∀ id, before.program.find? full = some id →
    (unitAt before id).visibleType? (.named (before.program.namespaces.intern package).1 name) = none
  types : after.types = (before.types.alloc
    (.sequenceable ⟨name, (before.program.namespaces.intern package).1⟩)).2
  imports : after.unit.imports = before.unit.imports
  sequenceables : after.sequenceables = before.sequenceables ++ [(full, sequenceableUnit
    before.unit.path package name (before.program.namespaces.intern package).1 before.types.size)]

/-- Why a sequenceable is refused. -/
inductive SequenceableFault (full : String) : SourceFault → Prop where
  | package : SequenceableFault full (.sequenceablePackage full)
  | twice : SequenceableFault full (.importedTwice full)

theorem SequenceableFault.semantic {full : String} {fault : SourceFault}
    (refused : SequenceableFault full fault) : fault.kind = .semantic := by
  cases refused <;> rfl

theorem declareSequenceable_cases (full : String) (place : Position) (state : ParseState) :
    (∃ fault, SequenceableFault full fault ∧
        declareSequenceable full place state = report place fault state) ∨
      ∃ package name after, declareSequenceable full place state = .ok () after ∧
        ((∃ id type, Shares full package name id type state after) ∨
          Adds full package name state after) := by
  simp only [declareSequenceable]
  cases split : Package.splitFullName? full with
  | none => exact .inl ⟨_, .package, rfl⟩
  | some parts =>
      obtain ⟨package, name⟩ := parts
      simp only [Bind.bind, EStateM.bind, get_run]
      split
      · exact .inl ⟨_, .twice, rfl⟩
      · rename_i new
        right
        refine ⟨package, name, ?_⟩
        have notImported : ∀ entry ∈ state.unit.imports, entry.1 ≠ full := by
          rintro entry listed rfl
          simp only [Bool.or_eq_true, not_or] at new
          exact new.1 (List.any_eq_true.mpr ⟨entry, listed, by simp⟩)
        have notSetAside : ∀ entry ∈ state.sequenceables, entry.1 ≠ full := by
          rintro entry listed rfl
          simp only [Bool.or_eq_true, not_or] at new
          exact new.2 (List.any_eq_true.mpr ⟨entry, listed, by simp⟩)
        cases shared : (state.program.find? full).bind fun id =>
            ((state.program.units[id]?.getD default).visibleType?
              (.named (state.program.namespaces.intern package).1 name)).map fun type => (id, type) with
        | none =>
            refine ⟨_, rfl, .inr ⟨⟨split, notImported, notSetAside, tableWith_eq _ _ _, rfl, rfl⟩,
              fun id found => ?_, rfl, rfl, rfl⟩⟩
            rw [found, Option.bind_some, Option.map_eq_none_iff] at shared
            exact shared
        | some offer =>
            obtain ⟨id, found, offered⟩ := Option.bind_eq_some_iff.mp shared
            obtain ⟨type, visible, rfl⟩ := Option.map_eq_some_iff.mp offered
            have assigned : assignImport full id state.unit.imports =
                state.unit.imports ++ [(full, id)] := assignImport_of_new notImported
            exact ⟨_, rfl, .inl ⟨id, type, ⟨split, notImported, notSetAside, tableWith_eq _ _ _, rfl, rfl⟩,
              found, visible, rfl, assigned, rfl⟩⟩

section

variable {full package name : String} {id : UnitId} {type : TypeId}

/-- Shared or new, the sequenceable is visible. -/
theorem exists_sees (outcome : (∃ id type, Shares full package name id type before after) ∨
    Adds full package name before after) : ∃ type, Sees full package name type before after := by
  rcases outcome with ⟨id, type, shares⟩ | adds
  · exact ⟨type, shares.toSees⟩
  · exact ⟨_, adds.toSees⟩

/-- A unit that was found is one of the program. -/
theorem unitAt_mem (found : before.program.find? name = some id) :
    unitAt before id ∈ before.program.units ∧ (unitAt before id).fullName = name := by
  obtain ⟨unit, present, named⟩ := Program.find?_eq_some found
  have same : unitAt before id = unit := by rw [unitAt, present, Option.getD_some]
  rw [same]
  exact ⟨Array.mem_of_getElem? present, named⟩

theorem Sees.advances (sees : Sees full package name type before after)
    (dotted : Package.Dotted package)
    (size : mark ≤ before.types.size → mark ≤ after.types.size)
    (kept : ∀ id < mark, after.types.node id = before.types.node id) :
    Advances mark before after where
  tokens := (show after.tokens = before.tokens by rw [sees.state]) ▸ List.suffix_refl _
  faults := ⟨[], by rw [sees.state]; simp⟩
  units := by rw [sees.state]
  namespaces wellFormed := by
    rw [sees.state]
    exact (before.program.namespaces.intern_spec wellFormed dotted).1
  listed id := by
    rw [sees.state]
    exact before.program.namespaces.listed_intern package id
  inside := size
  containers entry listed composite := by
    obtain ⟨added, table, keys⟩ := sees.table
    rw [table] at listed
    rcases List.mem_append.mp listed with earlier | new
    · exact .inl earlier
    · rw [keys entry new] at composite
      cases composite
  nodes id below := .inl (kept id below)
  path := by rw [sees.unit]
  name := by rw [sees.unit]

theorem Sees.dotted (sees : Sees full package name type before after)
    (dotted : Package.Dotted full) : Package.Dotted package := by
  rw [← Package.splitFullName?_eq_some sees.split] at dotted
  exact (Package.dotted_join.mp dotted).1

theorem Sees.sound (sees : Sees full package name type before after) (sound : before.Sound)
    (dotted : Package.Dotted package) (types : after.types.Sound) (grown : before.types.Extends after.types)
    (inside : type < after.types.size)
    (denotes : (TypeKey.named (before.program.namespaces.intern package).1 name).Denotes
      (after.types.node type)) : after.Sound := by
  obtain ⟨namespaces, -⟩ := before.program.namespaces.intern_spec sound.namespaces dotted
  obtain ⟨added, table, keys⟩ := sees.table
  refine
    { spelled := ?_
      types := types
      table := ?_
      units := ?_
      namespaces := ?_
      package_inside := ?_
      package_name := ?_ }
  · rw [sees.state]
    exact sound.spelled
  · rw [table]
    intro entry listed
    rcases List.mem_append.mp listed with early | late
    · exact sound.table.extend grown entry early
    · rw [keys entry late]
      exact ⟨inside, denotes⟩
  · rw [sees.state]
    intro unit listed
    exact (sound.units unit listed).extend grown
  · rw [sees.state]
    exact namespaces.wellFormed sound.namespaces
  · rw [sees.unit, sees.state]
    exact Nat.lt_of_lt_of_le sound.package_inside namespaces.size_le
  · rw [sees.unit, sees.state]
    exact (namespaces.fullName_eq sound.namespaces sound.package_inside).trans sound.package_name

theorem Shares.sound (shares : Shares full package name id type before after)
    (sound : before.Sound) (dotted : Package.Dotted package) : after.Sound := by
  have listed := CompiledUnit.mem_table_of_visibleType? shares.visible
  obtain ⟨inside, denotes⟩ := sound.units _ (unitAt_mem shares.found).1 _ listed
  apply shares.toSees.sound sound dotted <;> rw [shares.types]
  · exact sound.types
  · exact .refl _
  · exact inside
  · exact denotes

theorem Adds.sound (adds : Adds full package name before after) (sound : before.Sound)
    (dotted : Package.Dotted package) : after.Sound := by
  apply adds.toSees.sound sound dotted <;> rw [adds.types]
  · exact sound.types.alloc (by simp [TypeNode.parts]) (by simp)
  · exact .alloc _ _
  · simp
  · rw [TypeArena.node_alloc_size]
    exact ⟨rfl, rfl⟩

end

theorem Ensures.sequenceableStatement :
    Ensures mark known before sequenceableStatement fun _ after =>
      ∃ full package name read, Announced .sequenceable full before read ∧
        ((∃ id type, Shares full package name id type read after) ∨
          Adds full package name read after) := by
  intro origin
  refine bind (announcement (by decide)) ?_ origin
  rintro ⟨full, place⟩ read announced _ since
  have isName : Package.Dotted full := (announcement_ok (by decide) announced).dotted origin.spelled
  rcases declareSequenceable_cases full place read with
    ⟨fault, -, reported⟩ | ⟨package, name, after, run, outcome⟩
  · simp only [reported]
    have reports : Ensures mark known read (Parse.report place fault) _ := report place fault
    obtain ⟨advanced, impossible⟩ := reports.ok rfl since
    exact ⟨advanced, fun clean assumed sound => (impossible clean assumed.1 sound).2.elim⟩
  · simp only [run]
    rcases outcome with ⟨id, type, shares⟩ | adds
    · have dotted := shares.toSees.dotted isName
      refine ⟨shares.toSees.advances dotted ?_ ?_, fun _ assumed sound => ?_⟩
      · rw [shares.types]
        exact fun inside => inside
      · rw [shares.types]
        exact fun _ _ => rfl
      · exact ⟨shares.sound sound dotted, full, package, name, read, assumed.2, .inl ⟨id, type, shares⟩⟩
    · have dotted := adds.toSees.dotted isName
      refine ⟨adds.toSees.advances dotted ?_ ?_, fun _ assumed sound => ?_⟩
      · rw [adds.types, TypeArena.size_alloc]
        exact fun inside => Nat.le_succ_of_le inside
      · rw [adds.types]
        exact fun id below => TypeArena.node_alloc_of_lt (Nat.lt_of_lt_of_le below since.inside)
      · exact ⟨adds.sound sound dotted, full, package, name, read, assumed.2, .inr adds⟩

end Sequenceable

end Parse

end DriverIdl
