import DriverIdl.Proofs.Compilation
import DriverIdl.Proofs.EntryOrder
import DriverIdl.Proofs.ErrorAccounting
import DriverIdl.Proofs.Parsing.HeaderReading

/-!
# The compile order suffices

Files are compiled in an order in which the imports of each header come first.  As long as all files
are accepted, each leaves a unit of its name behind, so a file finds every unit that its header
lists.  An import that is refused as not compiled was therefore not listed, and then the header
breaks the grammar.
-/

namespace DriverIdl

section Listing

/-- A header lists an import once. -/
theorem Header.nodup_collectImports {known : List String} {tokens : List Token}
    (nodup : known.Nodup) : (collectImports known tokens).Nodup := by
  fun_induction collectImports known tokens with
  | case1 known => exact nodup
  | case2 known token rest isImport name text place others parts ih =>
      apply ih
      split
      · exact nodup
      · rename_i new
        simp only [List.contains_eq_mem, decide_eq_true_eq] at new
        exact nodup.append (by simp) (by simpa using new)
  | case3 known token rest isImport name others unlike parts ih => exact ih nodup
  | case4 known token rest notImport isSequenceable ih => exact ih nodup
  | case5 known token rest notImport notSequenceable => exact nodup

theorem Header.nodup_imports {path : Path} {source : String} {header : Header}
    (isHeader : ofSource path source = .ok header) : header.imports.Nodup := by
  unfold ofSource at isHeader
  split at isHeader
  · cases isHeader
  · split at isHeader
    · split at isHeader
      · cases isHeader
        exact nodup_collectImports .nil
      · cases isHeader
    · cases isHeader

theorem Header.stem?_of_ofSource {path : Path} {source : String} {header : Header}
    (isHeader : ofSource path source = .ok header) : path.stem? = some header.name := by
  unfold ofSource at isHeader
  split at isHeader
  · cases isHeader
  · rename_i name stem
    split at isHeader
    · split at isHeader
      · cases isHeader
        exact stem
      · cases isHeader
    · cases isHeader

end Listing

/-- In an order of names, the imports of each stand before it. -/
theorem ImportGraph.imports_before_of_order {units : List WaitingUnit} {names : List String}
    (valid : ImportMap units) (isOrder : order units = .ok names) {before after : List String}
    {name imported : String} (split : names = before ++ name :: after)
    (imports : Imports units name imported) : imported ∈ before := by
  rcases placing : place [] (splitReady units).1 (splitReady units).2 with ⟨placed, waiting⟩
  have progress : Progress units placed [] waiting := by
    simpa only [placing] using (Progress.start valid).run valid
  rw [order_eq placing] at isOrder
  split at isOrder
  · cases isOrder
    exact progress.imports_before split imports
  · cases isOrder

namespace Resolution

variable {options : Options} {tree : FileTree} {sources : List Path}

/-- What each unit imports is the name of a unit in front of it. -/
def ImportsFirst (units : List FoundUnit) : Prop :=
  ∀ earlier unit later, units = earlier ++ unit :: later →
    ∀ name ∈ unit.header.imports, ∃ other ∈ earlier, other.fullName = name

/-- The imports of the units that a search has found form a map. -/
theorem ImportClosure.importMap {units : List FoundUnit}
    (closure : ImportClosure options tree sources units) :
    ImportGraph.ImportMap (units.map fun unit => ⟨unit.fullName, unit.header.imports⟩) where
  names_nodup := by
    rw [List.map_map]
    exact closure.names_nodup
  imports_nodup := by
    intro waiting listed
    obtain ⟨unit, isUnit, rfl⟩ := List.mem_map.mp listed
    obtain ⟨source, -, isHeader⟩ := header_of_scan (closure.scanned unit isUnit)
    exact Header.nodup_imports isHeader
  closed := by
    intro waiting listed imported isImport
    obtain ⟨unit, isUnit, rfl⟩ := List.mem_map.mp listed
    obtain ⟨other, isOther, isName⟩ := closure.imports unit isUnit imported isImport
    rw [List.map_map]
    exact List.mem_map.mpr ⟨other, isOther, isName⟩

theorem ImportClosure.importsFirst {units ordered : List FoundUnit}
    (closure : ImportClosure options tree sources units) (isOrder : order units = .ok ordered) :
    ImportsFirst ordered := by
  intro earlier unit later split name isImport
  obtain ⟨names, placed, rfl⟩ := order_eq_ok.mp isOrder
  have isNames := names_of_order placed
  have isUnit : unit ∈ units := by
    apply mem_of_order isOrder
    rw [split]
    simp
  rw [split, List.map_append, List.map_cons] at isNames
  have before := ImportGraph.imports_before_of_order closure.importMap placed isNames.symm
    ⟨_, List.mem_map.mpr ⟨unit, isUnit, rfl⟩, rfl, isImport⟩
  exact List.mem_map.mp before

end Resolution

/-- A unit of a name is in the program. -/
def Program.Holds (program : Program) (name : String) : Prop :=
  ∃ id unit, program.find? name = some id ∧ program.units[id]? = some unit ∧ unit.fullName = name

/-- A fault of a token or of the grammar is among the diagnostics. -/
def ParseOutcome.BreaksGrammar (outcome : ParseOutcome) : Prop :=
  ∃ diagnostic ∈ outcome.diagnostics, diagnostic.kind = .lexical ∨ diagnostic.kind = .syntactic

section Units

open Parse

variable {program : Program} {options : Options} {tree : FileTree} {path : Path} {source : String}
  {header : Header}

theorem Program.holds_of_find? {name : String} {id : UnitId}
    (found : program.find? name = some id) : program.Holds name := by
  obtain ⟨unit, present, isName⟩ := find?_eq_some found
  exact ⟨id, unit, found, present, isName⟩

/-- An accepted file leaves a unit of its name behind. -/
theorem Program.holds_of_accepted (wellFormed : program.WellFormed)
    (isHeader : Header.ofSource path source = .ok header)
    (accepted : (program.parseSource options [] path source).accepted = true) :
    (program.parseSource options [] path source).program.Holds header.fullName := by
  obtain ⟨read, advanced, accepts⟩ := accepts_of_accepted wellFormed accepted
  obtain ⟨state, namespaces, published, -, isProgram⟩ := accepts.published
  obtain ⟨-, -, found⟩ :=
    ({ state.program with namespaces := namespaces } : Program).add_spec state.unit
  obtain ⟨before, announced⟩ := accepts.built.package
  have isName : state.unit.fullName = header.fullName := by
    rw [published.unit]
    change Package.fullName read.unit.package read.unit.name = _
    rw [advanced.name]
    exact fullName_eq_of_header announced isHeader
  rw [isName, ← isProgram] at found
  exact holds_of_find? found

/-- What a program holds it keeps when files are accepted. -/
theorem Program.Holds.extend {later : Program} {name : String} (holds : program.Holds name)
    (grown : program.Extends later) : later.Holds name := by
  obtain ⟨id, unit, found, -, -⟩ := holds
  exact holds_of_find? (grown.find?_eq found)

/-- Files that are accepted one after another leave units of all their names behind. -/
theorem Compiles.holds {first last : Program} {paths : List Path}
    (compiles : Compiles options tree first paths last) (start : first.WellFormed)
    (listed : path ∈ paths) (readable : tree.readText path = .ok source)
    (isHeader : Header.ofSource path source = .ok header) : last.Holds header.fullName := by
  obtain ⟨early, late, rfl⟩ := List.append_of_mem listed
  obtain ⟨middle, before, behind⟩ := compiles.append
  obtain ⟨-, wellFormed⟩ := before.wellFormed start
  cases behind with
  | cons readableToo accepted others =>
      cases readable.symm.trans readableToo
      obtain ⟨read, advanced, accepts⟩ := Program.accepts_of_accepted wellFormed accepted
      obtain ⟨-, wellFormedNext⟩ := accepts.wellFormed wellFormed advanced
      obtain ⟨grown, -⟩ := others.wellFormed wellFormedNext
      exact (Program.holds_of_accepted wellFormed isHeader accepted).extend grown

end Units

section Refusals

open Parse ParseState HeaderStatement

variable {program : Program} {options : Options} {path : Path} {source : String} {header : Header}

/-- The parser reads the header that is read ahead, unless the text breaks the grammar. -/
theorem Program.readsHeader_or_breaksGrammar (isHeader : Header.ofSource path source = .ok header) :
    (∃ statements opened,
        ReadsHeader options (ParseState.start program [] path source) statements opened ∧
        (∀ name, name ∈ header.imports ↔ name ∈ imports statements) ∧
        file options (ParseState.start program [] path source) = declarations options opened) ∨
      (program.parseSource options [] path source).BreaksGrammar := by
  obtain ⟨read, early, late, course⟩ := exists_course program options [] path source
  obtain ⟨result, run⟩ := course.reads
  have isRead := stateAfter_of_attempt run
  rcases @file_cases options (ParseState.start program [] path source) with
    ⟨statements, opened, reads, declared⟩ | loud
  · refine .inl ⟨statements, opened, reads, fun name => ?_, declared⟩
    have same := Except.ok.inj (isHeader.symm.trans
      (ofSource_of_readsHeader (Header.stem?_of_ofSource isHeader) reads))
    have listed : header.imports = statements.foldl collect [] := congrArg Header.imports same
    rw [listed, mem_foldl_collect]
    simp
  · obtain ⟨found, grown, diagnostic, listed, isLoud⟩ := loud
    rw [isRead, course.grown] at grown
    obtain rfl := List.append_cancel_left grown
    refine .inr ⟨diagnostic, ?_, ?_⟩
    · rw [course.diagnostics]
      simp [listed]
    · cases family : diagnostic.kind <;>
        simp_all [SourceFault.isQuiet, Diagnostic.kind]

/-- An import is refused as not compiled only if it is listed and not there, unless the text breaks
the grammar. -/
theorem Program.of_notCompiled (isHeader : Header.ofSource path source = .ok header)
    {diagnostic : Diagnostic} {name : String}
    (listed : diagnostic ∈ (program.parseSource options [] path source).diagnostics)
    (isFault : diagnostic.fault = .notCompiled name) :
    (name ∈ header.imports ∧ program.find? name = none) ∨
      (program.parseSource options [] path source).BreaksGrammar := by
  obtain ⟨read, early, late, course⟩ := exists_course program options [] path source
  obtain ⟨result, run⟩ := course.reads
  obtain ⟨state, finished⟩ := course.finishes
  have isRead := stateAfter_of_attempt run
  rcases @readsHeader_or_breaksGrammar program options _ _ _ isHeader with
    ⟨statements, opened, reads, same, declared⟩ | breaks
  · left
    have other : ¬diagnostic.fault.OfBody := by
      simp [isFault, SourceFault.OfBody, SourceFault.isOfHeader]
    rw [parseSource_of_finished run finished] at listed
    -- Nothing behind the header reports it, and nothing in front of the statements.
    have inRead := (Reports.finishUnit.ok finished).mem_of_not listed other
    have isDeclared : stateAfter (declarations options) opened = read := by
      rw [← isRead, stateAfter, ← declared]
      rfl
    have inHeader := (isDeclared ▸ Reports.declarations opened).mem_of_not inRead other
    rcases reads.of_notCompiled inHeader isFault with early | ⟨isImport, absent⟩
    · cases early
    · exact ⟨(same name).mpr isImport, absent⟩
  · exact .inr breaks

end Refusals

section Turns

variable {options : Options} {tree : FileTree} {program : Program} {path : Path}

theorem Program.diagnostics_of_accepted {diagnostics : List Diagnostic} {source : String}
    (accepted : (program.parseSource options diagnostics path source).accepted = true) :
    (program.parseSource options diagnostics path source).diagnostics = diagnostics := by
  obtain ⟨found, grown, -, noFault⟩ :=
    @Program.parseSource_accounts options program diagnostics path source
  rw [grown, noFault.mp accepted, List.append_nil]

theorem eq_parseSource_of_accepted
    (accepted : (program.parseFile options [] path (tree.readText path)).accepted = true) :
    ∃ source, tree.readText path = .ok source ∧
      program.parseFile options [] path (tree.readText path) =
        program.parseSource options [] path source ∧
      (program.parseSource options [] path source).diagnostics = [] := by
  cases readable : tree.readText path with
  | error fault =>
      rw [readable] at accepted
      cases accepted
  | ok source =>
      rw [readable] at accepted
      exact ⟨source, rfl, rfl, Program.diagnostics_of_accepted accepted⟩

/-- When the turn of a file comes and all files before it were accepted, it is parsed into the
program that these have built, and its outcome holds its own faults only. -/
theorem exists_turn {first : Program} {paths : List Path} {earlier later : List ParseOutcome}
    {outcome : ParseOutcome}
    (split : fileOutcomes options tree first [] paths = earlier ++ outcome :: later)
    (accepted : ∀ other ∈ earlier, other.accepted = true) :
    ∃ front path back program, paths = front ++ path :: back ∧ front.length = earlier.length ∧
      Compiles options tree first front program ∧
      outcome = program.parseFile options [] path (tree.readText path) := by
  induction earlier generalizing first paths with
  | nil =>
      cases paths with
      | nil => cases split
      | cons path rest =>
          obtain ⟨isOutcome, -⟩ := List.cons.inj split
          exact ⟨[], path, rest, first, rfl, rfl, .nil, isOutcome.symm⟩
  | cons other others ih =>
      cases paths with
      | nil => cases split
      | cons path rest =>
          obtain ⟨isOther, splitRest⟩ := List.cons.inj split
          have otherAccepted := accepted other (by simp)
          rw [← isOther] at otherAccepted
          obtain ⟨source, readable, same, silent⟩ := eq_parseSource_of_accepted otherAccepted
          rw [same] at splitRest otherAccepted
          rw [silent] at splitRest
          obtain ⟨front, next, back, program, isRest, lengths, compiles, isOutcome⟩ :=
            ih splitRest fun later listed => accepted later (by simp [listed])
          exact ⟨path :: front, next, back, program, by rw [isRest]; rfl, by simp [lengths],
            .cons readable otherAccepted compiles, isOutcome⟩

theorem length_fileOutcomes (first : Program) (diagnostics : List Diagnostic) (paths : List Path) :
    (fileOutcomes options tree first diagnostics paths).length = paths.length := by
  induction paths generalizing first diagnostics with
  | nil => rfl
  | cons path rest ih => simp [fileOutcomes, ih]

/-- If every file but the last is accepted, the turn of each one comes. -/
theorem exists_program {paths front back : List Path}
    (accepted : ∀ outcome ∈ (fileOutcomes options tree {} [] paths).dropLast,
      outcome.accepted = true) (order : paths = front ++ path :: back) :
    ∃ program, Compiles options tree {} front program := by
  have inside : front.length < (fileOutcomes options tree {} [] paths).length := by
    rw [length_fileOutcomes, order]
    simp
  have split : fileOutcomes options tree {} [] paths = _ :=
    (List.take_append_drop front.length _).symm
  rw [List.drop_eq_getElem_cons inside] at split
  rw [split, List.dropLast_append_cons] at accepted
  obtain ⟨start, next, rest, program, isPaths, lengths, compiles, -⟩ :=
    exists_turn split fun other listed => accepted other (List.mem_append_left _ listed)
  rw [List.length_take_of_le (Nat.le_of_lt inside)] at lengths
  obtain ⟨rfl, -⟩ := List.append_inj (isPaths.symm.trans order) lengths
  exact ⟨program, compiles⟩

/-- A file whose turn comes finds every unit that its header lists. -/
theorem imports_hold {resolution : Resolution}
    (resolved : Resolution.resolve options tree = .ok resolution) {front back : List Path}
    (order : resolution.paths = front ++ path :: back)
    (compiles : Compiles options tree {} front program) :
    ∃ source header, tree.readText path = .ok source ∧ Header.ofSource path source = .ok header ∧
      ∀ name ∈ header.imports, program.Holds name := by
  obtain ⟨units, discovered, orders⟩ := Resolution.bind_eq_ok.mp resolved
  obtain ⟨ordered, isOrder, last⟩ := Resolution.bind_eq_ok.mp orders
  cases last
  obtain ⟨closure, -⟩ := Resolution.closure_of_discover discovered
  have found := Resolution.found_of_order (Resolution.found_of_discover discovered) isOrder
  have first := closure.importsFirst isOrder
  obtain ⟨earlier, others, rfl, rfl, split⟩ := List.map_eq_append_iff.mp order
  obtain ⟨unit, later, rfl, rfl, rfl⟩ := List.map_eq_cons_iff.mp split
  obtain ⟨source, readable, isHeader⟩ :=
    Resolution.header_of_scan (found.scanned unit (by simp))
  refine ⟨source, unit.header, readable, isHeader, fun name isImport => ?_⟩
  obtain ⟨other, isOther, rfl⟩ := first earlier unit later rfl name isImport
  obtain ⟨text, readableOther, isHeaderOther⟩ :=
    Resolution.header_of_scan (found.scanned other (by simp [isOther]))
  exact compiles.holds .initial (List.mem_map.mpr ⟨other, isOther, rfl⟩) readableOther isHeaderOther

end Turns

/-- Once the files of a run are found, their order suffices.  In the first file that is refused,
no import is reported as not compiled unless other faults of the file break the grammar.  If every file
but the last is accepted, the units that the header of a file lists are all in the program that the
file is parsed into, and so are those of the imports that the parser processes, unless the file
breaks the grammar. -/
theorem compile_order_suffices {options : Options} {tree : FileTree} {resolution : Resolution}
    (resolved : Resolution.resolve options tree = .ok resolution) :
    (∀ earlier outcome later,
      fileOutcomes options tree {} [] resolution.paths = earlier ++ outcome :: later →
      (∀ other ∈ earlier, other.accepted = true) → outcome.accepted = false →
      ∀ diagnostic ∈ outcome.diagnostics, ∀ name, diagnostic.fault = .notCompiled name →
        outcome.BreaksGrammar) ∧
    ((∀ outcome ∈ (fileOutcomes options tree {} [] resolution.paths).dropLast,
        outcome.accepted = true) →
      ∀ earlier path later, resolution.paths = earlier ++ path :: later →
        ∃ program source header, Compiles options tree {} earlier program ∧
          tree.readText path = .ok source ∧ Header.ofSource path source = .ok header ∧
          (∀ name ∈ header.imports, program.Holds name) ∧
          ((∃ statements opened,
              Parse.ReadsHeader options (ParseState.start program [] path source) statements
                opened ∧
              ∀ name ∈ HeaderStatement.imports statements, program.Holds name) ∨
            (program.parseSource options [] path source).BreaksGrammar)) := by
  constructor
  · intro earlier outcome later split accepted _ diagnostic listed name isFault
    obtain ⟨front, path, back, program, order, -, compiles, rfl⟩ := exists_turn split accepted
    obtain ⟨source, header, readable, isHeader, holds⟩ := imports_hold resolved order compiles
    rw [readable] at listed ⊢
    rcases Program.of_notCompiled isHeader listed isFault with ⟨isImport, absent⟩ | breaks
    · obtain ⟨id, unit, found, -⟩ := holds name isImport
      rw [absent] at found
      cases found
    · exact breaks
  · intro accepted earlier path later order
    obtain ⟨program, compiles⟩ := exists_program accepted order
    obtain ⟨source, header, readable, isHeader, holds⟩ := imports_hold resolved order compiles
    refine ⟨program, source, header, compiles, readable, isHeader, holds, ?_⟩
    refine (Program.readsHeader_or_breaksGrammar isHeader).imp_left ?_
    rintro ⟨statements, opened, reads, same, -⟩
    exact ⟨statements, opened, reads, fun name isImport => holds name ((same name).mpr isImport)⟩

/-- A file that imports another one and breaks the grammar: its last import is passed over by the
reading ahead, as a part of the one before, which lacks its semicolon, but the parser goes on with
it. -/
def brokenSource : String :=
  "package a.v1_0; import a.v1_0.A; import a. import c.v1_0.X; struct T \x7b int y; \x7d;"

/-- The run over the file and the one that it imports. -/
def brokenOptions : Options := { sources := [Run.pairPath "A", Run.pairPath "B"] }

/-- What comes of the broken file behind the other one. -/
def brokenOutcome : ParseOutcome :=
  (({} : Program).parseSource brokenOptions [] (Run.pairPath "A") structSource).program.parseSource
    brokenOptions [] (Run.pairPath "B") brokenSource

/-- The unit of the broken file, with the one import that is read ahead. -/
def brokenUnit : FoundUnit :=
  ⟨⟨Run.pairPath "B", "a.v1_0", "B", ["a.v1_0.A"]⟩, ["a", "v1_0", "B.idl"]⟩

/-- Whether a fault is that the unit of a name is not compiled. -/
def SourceFault.isNotCompiled (name : String) : SourceFault → Bool
  | .notCompiled other => other == name
  | _ => false

/-- The headers of the two files; only the first one is accepted. -/
theorem brokenTree_spec :
    (Header.ofSource (Run.pairPath "A") structSource).toOption =
        some (Run.pairUnit "A").header ∧
      (Header.ofSource (Run.pairPath "B") brokenSource).toOption = some brokenUnit.header ∧
      brokenUnit.header.imports = [(Run.pairUnit "A").fullName] ∧
      (Run.pairUnit "A").fullName ≠ brokenUnit.fullName ∧
      (Run.pairUnit "A").fullName ≤ brokenUnit.fullName ∧
      (({} : Program).parseSource brokenOptions [] (Run.pairPath "A") structSource).accepted ∧
      brokenOutcome.diagnostics.any (fun diagnostic =>
        diagnostic.fault.isNotCompiled "c.v1_0.X") := by
  decide +kernel

theorem resolve_broken : Resolution.resolve brokenOptions (Run.pairTree brokenSource) =
    .ok ⟨[Run.pairUnit "A", brokenUnit], [Run.pairPath "A", Run.pairPath "B"]⟩ := by
  obtain ⟨isHeader, isHeaderToo, imports, differs, sorted, -⟩ := brokenTree_spec
  exact @Resolution.resolve_importing brokenOptions _ _ _ _ _
    (Resolution.scan_of_read rfl rfl (Resolution.eq_ok_of_toOption isHeader))
    (Resolution.scan_of_read rfl rfl (Resolution.eq_ok_of_toOption isHeaderToo)) rfl imports
    differs sorted

theorem fileOutcomes_two {options : Options} {tree : FileTree} {program : Program}
    {path other : Path} {source second : String} (readable : tree.readText path = .ok source)
    (readableToo : tree.readText other = .ok second)
    (clean : (program.parseSource options [] path source).diagnostics = []) :
    fileOutcomes options tree program [] [path, other] =
      [program.parseSource options [] path source,
        (program.parseSource options [] path source).program.parseSource options [] other second] := by
  simp only [fileOutcomes, Program.parseFile, readable, readableToo, clean]

theorem fileOutcomes_broken :
    fileOutcomes brokenOptions (Run.pairTree brokenSource) {} []
        [Run.pairPath "A", Run.pairPath "B"] =
      [({} : Program).parseSource brokenOptions [] (Run.pairPath "A") structSource,
        brokenOutcome] := by
  obtain ⟨-, -, -, -, -, accepted, -⟩ := brokenTree_spec
  obtain ⟨readable, readableToo⟩ := Run.readText_pairTree brokenSource
  exact fileOutcomes_two readable readableToo (Program.diagnostics_of_accepted accepted)

/-- The broken file has an import refused as not compiled, and it finds the unit that it lists. -/
theorem compile_order_suffices_broken :
    (∃ diagnostic ∈ brokenOutcome.diagnostics, diagnostic.fault = .notCompiled "c.v1_0.X") ∧
      brokenOutcome.BreaksGrammar ∧
      ∃ program, Compiles brokenOptions (Run.pairTree brokenSource) {} [Run.pairPath "A"] program ∧
        program.Holds "a.v1_0.A" := by
  obtain ⟨firstRefused, lastOnly⟩ := compile_order_suffices resolve_broken
  have outcomes := fileOutcomes_broken
  obtain ⟨-, announced, -, -, -, accepted, reports⟩ := brokenTree_spec
  obtain ⟨diagnostic, listed, isFault⟩ : ∃ diagnostic ∈ brokenOutcome.diagnostics,
      diagnostic.fault = .notCompiled "c.v1_0.X" := by
    obtain ⟨diagnostic, listed, isFault⟩ := List.any_eq_true.mp reports
    refine ⟨diagnostic, listed, ?_⟩
    unfold SourceFault.isNotCompiled at isFault
    split at isFault
    · rename_i other same
      rw [same, eq_of_beq isFault]
    · cases isFault
  have refused : brokenOutcome.accepted = false := by
    refine Bool.eq_false_iff.mpr fun isAccepted => ?_
    rw [brokenOutcome, Program.diagnostics_of_accepted isAccepted] at listed
    cases listed
  refine ⟨⟨diagnostic, listed, isFault⟩, ?_, ?_⟩
  · exact firstRefused [_] brokenOutcome [] outcomes (by simpa using accepted) refused diagnostic
      listed _ isFault
  · have onlyLast : ∀ outcome ∈ (fileOutcomes brokenOptions (Run.pairTree brokenSource) {} []
        [Run.pairPath "A", Run.pairPath "B"]).dropLast, outcome.accepted = true := by
      rw [outcomes]
      simpa using accepted
    obtain ⟨program, source, header, compiles, readable, isHeader, holds, -⟩ :=
      lastOnly onlyLast [Run.pairPath "A"] (Run.pairPath "B") [] rfl
    obtain rfl := Except.ok.inj (readable.symm.trans (Run.readText_pairTree brokenSource).2)
    obtain rfl := Except.ok.inj (isHeader.symm.trans (Resolution.eq_ok_of_toOption announced))
    exact ⟨program, compiles, holds _ List.mem_cons_self⟩

end DriverIdl
