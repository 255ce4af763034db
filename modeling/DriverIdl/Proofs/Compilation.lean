import DriverIdl.Compilation
import DriverIdl.Proofs.Program.Reachable
import DriverIdl.Proofs.Resolution

/-!
# No file is lost

A run that compiles has accepted every file of its order.  The unit of a file is added under its
full name, unless a sequenceable of that name was announced by then: a sequenceable becomes a unit
of its own, ahead of the unit of the file that announces it, and a unit whose name is taken is
dropped without an error.
-/

namespace DriverIdl

open Parse

namespace Program

variable {program : Program} {options : Options} {start read : ParseState} {outcome : ParseOutcome}

/-- Publishing sequenceables adds units with names that the text announces. -/
theorem mem_units_of_published {state : ParseState}
    (advanced : start.Advances start.types.size read)
    (built : Built options start.types.size start read)
    (published : Published (settled read) read.sequenceables state) {unit : CompiledUnit}
    (listed : unit ∈ state.program.units) :
    unit ∈ start.program.units ∨ Announces .sequenceable unit.fullName start.tokens := by
  obtain ⟨added, units, setAside⟩ := published.units
  rw [units] at listed
  rcases Array.mem_append.mp listed with isOld | isSequenceable
  · exact .inl (advanced.units ▸ isOld)
  · obtain ⟨entry, isListed, rfl⟩ := setAside unit isSequenceable
    obtain ⟨announced, package, name, namespaceId, type, rfl, -⟩ :=
      built.sequenceables entry isListed
    exact .inr announced

/-- The units of an accepted text are those before it, its own, and sequenceables it announces. -/
theorem Accepts.units (advanced : start.Advances start.types.size read)
    (accepts : Accepts options start read outcome) {unit : CompiledUnit}
    (listed : unit ∈ outcome.program.units) :
    unit ∈ start.program.units ∨ unit.fullName = read.unit.fullName ∨
      Announces .sequenceable unit.fullName start.tokens := by
  obtain ⟨state, namespaces, published, -, isProgram⟩ := accepts.published
  obtain ⟨-, ⟨new, units, isNew⟩, -⟩ :=
    ({ state.program with namespaces := namespaces } : Program).add_spec state.unit
  rw [isProgram, units] at listed
  rcases Array.mem_append.mp listed with earlier | isOwn
  · exact (mem_units_of_published advanced accepts.built published earlier).imp_right .inr
  · obtain ⟨rfl, -⟩ := isNew unit isOwn
    refine .inr (.inl ?_)
    rw [published.unit]
    rfl

/-- The unit of an accepted text is added if its name is free and the text announces no sequenceable
of that name. -/
theorem Accepts.added (advanced : start.Advances start.types.size read)
    (accepts : Accepts options start read outcome)
    (unknown : start.program.find? read.unit.fullName = none)
    (unannounced : ¬Announces .sequenceable read.unit.fullName start.tokens) :
    ∃ id unit, outcome.program.find? read.unit.fullName = some id ∧
      outcome.program.units[id]? = some unit ∧
      unit = { read.unit with kind := unitKind read.types read.unit, imports := unit.imports } := by
  obtain ⟨state, namespaces, published, -, isProgram⟩ := accepts.published
  have sameName : state.unit.fullName = read.unit.fullName := by
    rw [published.unit]
    rfl
  have absent : ({ state.program with namespaces := namespaces } : Program).find?
      state.unit.fullName = none := by
    rw [sameName]
    apply find?_eq_none.mpr
    intro unit listed isName
    rcases mem_units_of_published advanced accepts.built published listed with isOld | announced
    · exact find?_eq_none.mp unknown unit isOld isName
    · exact unannounced (isName ▸ announced)
  rcases ({ state.program with namespaces := namespaces } : Program).add_cases state.unit with
    ⟨id, found, -⟩ | ⟨-, pushed⟩
  · rw [absent] at found
    cases found
  · rw [pushed] at isProgram
    refine ⟨state.program.units.size, state.unit, ?_, ?_, ?_⟩
    · rw [isProgram, ← sameName]
      exact find?_push_self absent
    · rw [isProgram]
      simp
    · exact published.unit

/-- The parser and the header agree about the package of a file. -/
theorem package_eq_of_header {diagnostics : List Diagnostic} {path : Path}
    {source package : String}
    {header : Header}
    (announced : Announced .packageWord package (ParseState.start program diagnostics path source) read)
    (isHeader : Header.ofSource path source = .ok header) :
    package = header.package ∧ path.stem? = some header.name := by
  obtain ⟨word, rest, semicolon, tokens, isWord, reads, isSemicolon⟩ := announced.statement
  have filtered : (TokenStream.ofSource source).tokens.filter (fun token => !token.isComment) =
      word :: rest := tokens
  obtain ⟨wordKind, wordText, wordPlace⟩ := word
  obtain ⟨semicolonKind, semicolonText, semicolonPlace⟩ := semicolon
  subst isWord isSemicolon
  simp only [Header.ofSource, filtered, reads] at isHeader
  split at isHeader
  · cases isHeader
  · rename_i name stem
    cases isHeader
    exact ⟨rfl, stem⟩

theorem fullName_eq_of_header {diagnostics : List Diagnostic} {path : Path}
    {source package : String}
    {header : Header}
    (announced : Announced .packageWord package (ParseState.start program diagnostics path source) read)
    (isHeader : Header.ofSource path source = .ok header) :
    Package.fullName package (path.stem?.getD "") = header.fullName := by
  obtain ⟨rfl, stem⟩ := package_eq_of_header announced isHeader
  rw [stem]
  rfl

end Program

/-- Files that are read and accepted one after another, from one program to another. -/
inductive Compiles (options : Options) (tree : FileTree) : Program → List Path → Program →
    Prop where
  | nil {program : Program} : Compiles options tree program [] program
  | cons {program final : Program} {path : Path} {rest : List Path} {source : String}
      (readable : tree.readText path = .ok source)
      (accepted : (program.parseSource options [] path source).accepted = true)
      (others : Compiles options tree (program.parseSource options [] path source).program rest final) :
      Compiles options tree program (path :: rest) final

namespace Compiles

variable {options : Options} {tree : FileTree} {first last : Program}

theorem append {earlier later : List Path} (compiles : Compiles options tree first (earlier ++ later) last) :
    ∃ middle, Compiles options tree first earlier middle ∧ Compiles options tree middle later last := by
  induction earlier generalizing first with
  | nil => exact ⟨first, .nil, compiles⟩
  | cons path rest ih =>
      cases compiles with
      | cons readable accepted others =>
          obtain ⟨middle, early, late⟩ := ih others
          exact ⟨middle, .cons readable accepted early, late⟩

theorem wellFormed {paths : List Path} (compiles : Compiles options tree first paths last)
    (start : first.WellFormed) : first.Extends last ∧ last.WellFormed := by
  induction compiles with
  | nil => exact ⟨.refl _, start⟩
  | cons _ accepted _ ih =>
      obtain ⟨read, advanced, accepts⟩ := Program.accepts_of_accepted start accepted
      obtain ⟨grown, wellFormed⟩ := accepts.wellFormed start advanced
      obtain ⟨grownMore, wellFormedLast⟩ := ih wellFormed
      exact ⟨grown.trans grownMore, wellFormedLast⟩

/-- A unit has the name of a file or that of a sequenceable that a file announces. -/
theorem units {paths : List Path} (compiles : Compiles options tree first paths last)
    (start : first.WellFormed) {unit : CompiledUnit} (listed : unit ∈ last.units) :
    unit ∈ first.units ∨ ∃ path ∈ paths, ∃ source, tree.readText path = .ok source ∧
      (Announces .sequenceable unit.fullName (sourceTokens source) ∨
        ∀ header, Header.ofSource path source = .ok header → unit.fullName = header.fullName) := by
  induction compiles with
  | nil => exact .inl listed
  | @cons program final path rest source readable accepted others ih =>
      obtain ⟨read, advanced, accepts⟩ := Program.accepts_of_accepted start accepted
      obtain ⟨-, wellFormed⟩ := accepts.wellFormed start advanced
      rcases ih wellFormed listed with early | ⟨other, isOther, late⟩
      · rcases accepts.units advanced early with old | isOwn | announced
        · exact .inl old
        · refine .inr ⟨path, by simp, source, readable, .inr fun header isHeader => ?_⟩
          obtain ⟨before, announced⟩ := accepts.built.package
          rw [isOwn, ← Program.fullName_eq_of_header announced isHeader, CompiledUnit.fullName,
            advanced.name]
          rfl
        · exact .inr ⟨path, by simp, source, readable, .inl announced⟩
      · exact .inr ⟨other, by simp [isOther], late⟩

/-- Files whose diagnostics are none have all been accepted. -/
theorem of_foldl {paths : List Path} (start : first.WellFormed) {diagnostics : List Diagnostic}
    (compiled : paths.foldl
      (fun (program, diagnostics) path =>
        let outcome := Program.parseFile options program diagnostics path (tree.readText path)
        (outcome.program, outcome.diagnostics))
      (first, diagnostics) = (last, [])) :
    diagnostics = [] ∧ Compiles options tree first paths last := by
  induction paths generalizing first diagnostics with
  | nil =>
      cases compiled
      exact ⟨rfl, .nil⟩
  | cons path rest ih =>
      rw [List.foldl_cons] at compiled
      cases readable : tree.readText path with
      | error fault =>
          simp only [Program.parseFile, readable] at compiled
          obtain ⟨impossible, -⟩ := ih start compiled
          simp at impossible
      | ok source =>
          simp only [Program.parseFile, readable] at compiled
          obtain ⟨noneMore, others⟩ := ih (start.parseSource options diagnostics path source) compiled
          obtain ⟨read, -, rejects | accepts⟩ :=
            Program.parseSource_cases start options diagnostics path source
          · obtain ⟨found, grown, some⟩ := rejects.diagnostics
            rw [noneMore] at grown
            exact absurd (List.append_eq_nil_iff.mp grown.symm).2 some
          · have clean := accepts.diagnostics
            rw [noneMore] at clean
            obtain rfl : diagnostics = [] := clean.symm
            exact ⟨rfl, .cons readable accepts.accepted others⟩

end Compiles

/-- A run that compiles has accepted all its files. -/
theorem compiles_of_compile {options : Options} {tree : FileTree} {program : Program}
    (compiled : compile options tree = .ok program) : ∃ resolution,
    Resolution.resolve options tree = .ok resolution ∧
      Compiles options tree {} resolution.paths program := by
  obtain ⟨resolution, resolved, folds⟩ := Resolution.bind_eq_ok.mp compiled
  refine ⟨resolution, resolved, ?_⟩
  generalize folded : resolution.paths.foldl _ _ = result at folds
  obtain ⟨last, diagnostics⟩ := result
  simp only at folds
  split at folds
  · rename_i isEmpty
    cases folds
    rw [List.isEmpty_iff.mp isEmpty] at folded
    exact (Compiles.of_foldl .initial folded).2
  · cases folds

namespace CompiledUnit

/-- The unit defines exactly the enums, structs and unions that a text declares, in order. -/
def HoldsDefinitionsOf (program : Program) (unit : CompiledUnit) (source : String) : Prop :=
  unit.definitions.map (fun id => (program.types.node id).declaration?) =
    ((spelledDeclarations (sourceTokens source)).filter fun declared =>
      declared.1 ≠ .interface).map some

/-- The unit has the interface that a text declares, if it declares one. -/
def HoldsInterfaceOf (program : Program) (unit : CompiledUnit) (source : String) : Prop :=
  unit.interface.toList.map (fun id => (program.types.node id).declaration?) =
    ((spelledDeclarations (sourceTokens source)).filter fun declared =>
      declared.1 = .interface).map some

end CompiledUnit

section Kept

variable {options : Options} {tree : FileTree} {program : Program} {start read : ParseState}
  {outcome : ParseOutcome} {path : Path} {source : String}

/-- What a text declares is what its unit holds, in every program that grows from it. -/
theorem holds_of_accepts {middle : Program}
    (accepts : Program.Accepts options (ParseState.start middle [] path source) read outcome)
    (grown : outcome.program.Extends program) (wellFormed : program.WellFormed)
    {unit : CompiledUnit}
    (listed : unit ∈ program.units)
    (isUnit : unit = { read.unit with
      kind := unitKind read.types read.unit, imports := unit.imports }) :
    (unit.kind = .interface ∨ unit.kind = .callback ∨ unit.kind = .types) ∧
      unit.HoldsDefinitionsOf program source ∧
      (unit.HoldsInterfaceOf program source ∨ unit.Shadowed program) := by
  have kind : unit.kind = unitKind read.types read.unit := by rw [isUnit]
  have definitions : unit.definitions = read.unit.definitions := by rw [isUnit]
  have interface : unit.interface = read.unit.interface := by rw [isUnit]
  have name : unit.name = read.unit.name := by rw [isUnit]
  have notSequenceable : unit.kind = .interface ∨ unit.kind = .callback ∨ unit.kind = .types := by
    rw [kind, unitKind]
    split
    · split <;> simp
    · simp
  obtain ⟨declared, whole, types, interfaces⟩ := accepts.built.spelled
  rw [accepts.finished, spelledDeclarations, List.append_nil] at whole
  have spelled : spelledDeclarations (sourceTokens source) = declared := whole
  refine ⟨notSequenceable, ?_, ?_⟩
  · have extended := grown.types
    rw [accepts.types_eq] at extended
    rw [CompiledUnit.HoldsDefinitionsOf, definitions, spelled, ← types]
    exact accepts.built.spelled.declarations_eq extended
  · rw [CompiledUnit.HoldsInterfaceOf, spelled, ← interfaces, ← interface, ← name]
    cases (wellFormed.units unit listed).shape with
    | sequenceable id isSequenceable => simp [isSequenceable] at notSequenceable
    | types _ noInterface _ _ => exact .inl (by simp [noInterface])
    | interface id _ isInterface _ _ _ declared =>
        exact declared.imp_left fun isDeclared => by simp [isInterface, isDeclared]

/-- The name of a file is free when its turn comes, unless a sequenceable has taken it. -/
theorem find?_eq_none_of_order {middle : Program} {earlier : List FoundUnit} {unit : FoundUnit}
    {later : List FoundUnit} (found : Resolution.Found tree (earlier ++ unit :: later))
    (compiles : Compiles options tree {} (earlier.map fun unit => unit.header.path) middle)
    (unannounced : ∀ other ∈ earlier, ∀ text, tree.readText other.header.path = .ok text →
      ¬Announces .sequenceable unit.fullName (sourceTokens text)) :
    middle.find? unit.fullName = none := by
  apply Program.find?_eq_none.mpr
  intro compiled listed isName
  rcases compiles.units .initial listed with impossible | ⟨path, isPath, source, readable, outcome⟩
  · simp at impossible
  · obtain ⟨other, isOther, rfl⟩ := List.mem_map.mp isPath
    rcases outcome with announced | isHeader
    · exact unannounced other isOther source readable (isName ▸ announced)
    · obtain ⟨text, readableToo, header⟩ :=
        Resolution.header_of_scan (found.scanned other (by simp [isOther]))
      rw [readable] at readableToo
      cases readableToo
      have names := found.names_nodup
      rw [List.map_append, List.map_cons] at names
      have different := (List.nodup_append.mp names).2.2 other.fullName
        (List.mem_map.mpr ⟨other, isOther, rfl⟩) unit.fullName (by simp)
      exact different ((isHeader _ header).symm.trans isName)

/-- Every file of a run that compiles can be read, and if no file up to it announces a sequenceable
of its full name, its unit is found under that name and holds what the file declares, but for an
interface that an imported type has taken the place of. -/
theorem compiled_file_keeps_unit {resolution : Resolution}
    (resolved : Resolution.resolve options tree = .ok resolution)
    (compiled : compile options tree = .ok program) {earlier later : List Path}
    (order : resolution.paths = earlier ++ path :: later) :
    ∃ source header, tree.readText path = .ok source ∧ Header.ofSource path source = .ok header ∧
      ((∀ other ∈ earlier ++ [path], ∀ text, tree.readText other = .ok text →
          ¬Announces .sequenceable header.fullName (sourceTokens text)) →
        ∃ id unit, program.find? header.fullName = some id ∧ program.units[id]? = some unit ∧
          unit.path = path ∧
          (unit.kind = .interface ∨ unit.kind = .callback ∨ unit.kind = .types) ∧
          unit.HoldsDefinitionsOf program source ∧
          (unit.HoldsInterfaceOf program source ∨ unit.Shadowed program)) := by
  obtain ⟨ordered, found, paths⟩ := Resolution.found_of_resolve resolved
  obtain ⟨sameResolution, resolvedToo, compiles⟩ := compiles_of_compile compiled
  obtain rfl : resolution = sameResolution := by
    rw [resolved] at resolvedToo
    exact Except.ok.inj resolvedToo
  rw [order] at paths compiles
  obtain ⟨first, others, rfl, rfl, split⟩ := List.map_eq_append_iff.mp paths.symm
  obtain ⟨unit, last, rfl, rfl, rfl⟩ := List.map_eq_cons_iff.mp split
  obtain ⟨source, readable, isHeader⟩ :=
    Resolution.header_of_scan (found.scanned unit (by simp))
  refine ⟨source, unit.header, readable, isHeader, fun unannounced => ?_⟩
  obtain ⟨middle, early, late⟩ := compiles.append
  obtain ⟨-, wellFormed⟩ := early.wellFormed .initial
  have unknown : middle.find? unit.fullName = none := by
    apply find?_eq_none_of_order found early
    intro other isOther
    exact unannounced _ (List.mem_append_left _ (List.mem_map.mpr ⟨other, isOther, rfl⟩))
  cases late with
  | @cons _ _ _ _ text readableToo accepted others =>
      obtain rfl : source = text := by
        rw [readable] at readableToo
        exact Except.ok.inj readableToo
      obtain ⟨read, advanced, accepts⟩ := Program.accepts_of_accepted wellFormed accepted
      obtain ⟨-, wellFormedNext⟩ := accepts.wellFormed wellFormed advanced
      obtain ⟨grown, wellFormedLast⟩ := others.wellFormed wellFormedNext
      have isName : read.unit.fullName = unit.fullName := by
        obtain ⟨before, announced⟩ := accepts.built.package
        rw [CompiledUnit.fullName, advanced.name]
        exact Program.fullName_eq_of_header announced isHeader
      have free : ¬Announces .sequenceable unit.fullName (sourceTokens source) :=
        unannounced _ (by simp) source readable
      rw [← isName] at unknown free
      obtain ⟨id, own, foundOwn, present, isOwn⟩ := accepts.added advanced unknown free
      have presentLast := grown.getElem?_eq present
      refine ⟨id, own, ?_, presentLast, ?_, holds_of_accepts accepts grown wellFormedLast
        (Array.mem_of_getElem? presentLast) isOwn⟩
      · have foundLast := grown.find?_eq foundOwn
        rwa [isName] at foundLast
      · rw [isOwn]
        exact advanced.path

/-- A run over one file without imports compiles if the file is accepted. -/
theorem compile_single {unit : FoundUnit} (sources : options.sources = [path])
    (scanned : Resolution.scan tree path = .ok unit) (noImports : unit.header.imports = [])
    (listed : unit.location ∈ tree.files) (readable : tree.readText path = .ok source)
    (accepted : (({} : Program).parseSource options [] path source).diagnostics = []) :
    compile options tree = .ok (({} : Program).parseSource options [] path source).program := by
  simp only [compile, Resolution.resolve_single sources scanned noImports listed, Bind.bind,
    Except.bind, List.foldl_cons, List.foldl_nil, Program.parseFile, readable, accepted]
  rfl

end Kept

/-- A directory with one file of types. -/
def typesTree (source : String) : FileTree :=
  { nodes := [(["a"], .directory), (["a", "v1_0"], .directory),
      (["a", "v1_0", "Types.idl"], .file source.toUTF8)] }

/-- The path of that file. -/
def typesPath : Path := ⟨"a/v1_0/Types.idl"⟩

/-- A run over that file. -/
def typesOptions : Options := { sources := [typesPath] }

theorem readText_typesTree (source : String) : (typesTree source).readText typesPath = .ok source :=
  Resolution.readText_of_read rfl

theorem compile_typesTree {source : String}
    (noImports : (Header.ofSource typesPath source).toOption.map Header.imports = some [])
    (accepted : (({} : Program).parseSource typesOptions [] typesPath source).diagnostics = []) :
    (∃ units, Resolution.resolve typesOptions (typesTree source) = .ok ⟨units, [typesPath]⟩) ∧
      compile typesOptions (typesTree source) =
        .ok (({} : Program).parseSource typesOptions [] typesPath source).program := by
  have readable := readText_typesTree source
  cases isHeader : Header.ofSource typesPath source with
  | error fault => simp [isHeader, Except.toOption] at noImports
  | ok header =>
      have none : header.imports = [] := by simpa [isHeader, Except.toOption] using noImports
      have scanned : Resolution.scan (typesTree source) typesPath =
          .ok ⟨header, ["a", "v1_0", "Types.idl"]⟩ := Resolution.scan_of_read rfl rfl isHeader
      have listed : ["a", "v1_0", "Types.idl"] ∈ (typesTree source).files := by
        simp [FileTree.files, typesTree]
      exact ⟨⟨_, Resolution.resolve_single rfl scanned none listed⟩,
        compile_single rfl scanned none listed readable accepted⟩

/-- A file that defines a struct. -/
def structSource : String := "package a.v1_0; struct S \x7b int x; \x7d;"

/-- A file that also announces a sequenceable of its own name. -/
def sequenceableSource : String :=
  "package a.v1_0; sequenceable a.v1_0.Types; struct S \x7b int x; \x7d;"

/-- Both files are accepted; the second one leaves units of sequenceables only. -/
theorem typesOutcomes_spec :
    (∀ source ∈ [structSource, sequenceableSource],
      (Header.ofSource typesPath source).toOption.map Header.imports = some [] ∧
        (({} : Program).parseSource typesOptions [] typesPath source).diagnostics.isEmpty = true) ∧
      (sourceTokens structSource).all (fun token => token.kind != .sequenceable) = true ∧
      (({} : Program).parseSource typesOptions [] typesPath
        sequenceableSource).program.units.all (fun unit => unit.kind == .sequenceable) = true := by
  decide +kernel

theorem compiled_struct_keeps_unit : ∃ program,
    compile typesOptions (typesTree structSource) = .ok program ∧
      ∃ header id unit, Header.ofSource typesPath structSource = .ok header ∧
        program.find? header.fullName = some id ∧ program.units[id]? = some unit ∧
        unit.HoldsDefinitionsOf program structSource := by
  obtain ⟨both, noSequenceable, -⟩ := typesOutcomes_spec
  obtain ⟨noImports, accepted⟩ := both structSource (by simp)
  obtain ⟨⟨units, resolved⟩, compiled⟩ :=
    compile_typesTree noImports (List.isEmpty_iff.mp accepted)
  have order : (⟨units, [typesPath]⟩ : Resolution).paths = [] ++ typesPath :: [] := rfl
  obtain ⟨source, header, readable, isHeader, keeps⟩ :=
    compiled_file_keeps_unit resolved compiled order
  rw [readText_typesTree] at readable
  cases readable
  obtain ⟨id, unit, found, present, -, -, definitions, -⟩ := keeps (by
    intro other isOther text readable announced
    obtain rfl : other = typesPath := by simpa using isOther
    rw [readText_typesTree] at readable
    cases readable
    obtain ⟨token, listed, isSequenceable⟩ := announced.exists_mem
    have different := List.all_eq_true.mp noSequenceable token listed
    simp [isSequenceable] at different)
  exact ⟨_, compiled, header, id, unit, isHeader, found, present, definitions⟩

/-- The file compiles, but no unit of types is left of it. -/
theorem compiled_sequenceable_loses_unit : ∃ units program,
    Resolution.resolve typesOptions (typesTree sequenceableSource) = .ok ⟨units, [typesPath]⟩ ∧
      compile typesOptions (typesTree sequenceableSource) = .ok program ∧
      ∀ unit ∈ program.units, unit.kind = .sequenceable := by
  obtain ⟨both, -, onlySequenceables⟩ := typesOutcomes_spec
  obtain ⟨noImports, accepted⟩ := both sequenceableSource (by simp)
  obtain ⟨⟨units, resolved⟩, compiled⟩ :=
    compile_typesTree noImports (List.isEmpty_iff.mp accepted)
  refine ⟨units, _, resolved, compiled, fun unit listed => ?_⟩
  simpa using Array.all_eq_true_iff_forall_mem.mp onlySequenceables unit listed

end DriverIdl
