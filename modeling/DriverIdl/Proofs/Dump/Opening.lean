import DriverIdl.Proofs.Dump.Finishing
import DriverIdl.Proofs.Dump.Sequenceables
import DriverIdl.Proofs.Program.Accounting

/-!
# A file that is opened again

The package of a file without faults is read again from its words, and enters the same node.  Behind
the header nothing is ahead that a file of types does not declare.
-/

namespace DriverIdl

open Parse ParseState

variable {options : Options} {before after first second : ParseState} {package name : String}
  {words : List Word}

namespace ParseState.Alike

theorem withPackage (alike : Alike first second) (package : String) (version : Version) :
    Alike (Parse.withPackage first package version) (Parse.withPackage second package version) where
  types := alike.types
  namespaces := by simp only [Parse.withPackage, alike.namespaces]
  units := alike.units
  unit := by
    simp only [Parse.withPackage, alike.namespaces]
    rw [alike.unit]
  visible := alike.visible
  sequenceables := alike.sequenceables
  errors := alike.errors

end ParseState.Alike

namespace Parse

/-- Checks the version of a package, and enters it. -/
def enterVersion (options : Options) (package : String) (place : Position) : Parse Unit := do
  match Package.version package with
  | .ok version => modify fun state => { state with unit := { state.unit with version := version } }
  | .error fault => report place (.package fault)
  enterPackage options package place

theorem packageStatement_eq (options : Options) :
    packageStatement options = (do
      let (package, place) ← announcement .packageWord "\"package\"" "a package name"
      enterVersion options package place) := rfl

/-- A package that is entered without a fault has a version and suits the place of the file. -/
structure Placed (options : Options) (package : String) (version : Version) (path : Path) : Prop where
  versioned : Package.version package = .ok version
  placed : options.checkPlacement package path = .ok ()

theorem enterVersion_run {version : Version} {place : Position}
    (placed : Placed options package version before.unit.path) :
    enterVersion options package place before = .ok () (withPackage before package version) := by
  simp only [enterVersion, placed.versioned, enterPackage, Bind.bind, EStateM.bind, modify_run,
    get_run, placed.placed]
  rfl

theorem enterVersion_ok {place : Position}
    (run : enterVersion options package place before = .ok () after)
    (clean : after.errors = before.errors) :
    ∃ version, Placed options package version before.unit.path ∧
      after = withPackage before package version := by
  cases versioned : Package.version package with
  | error fault =>
      simp only [enterVersion, versioned, enterPackage, Bind.bind, EStateM.bind, report, modify_run,
        get_run] at run
      cases placed : options.checkPlacement package before.unit.path with
      | ok _ =>
          rw [placed] at run
          cases run
          simp at clean
      | error _ =>
          rw [placed] at run
          cases run
          simp at clean
          omega
  | ok version =>
      simp only [enterVersion, versioned, enterPackage, Bind.bind, EStateM.bind, modify_run,
        get_run] at run
      cases placed : options.checkPlacement package before.unit.path with
      | ok _ =>
          rw [placed] at run
          cases run
          exact ⟨version, ⟨versioned, placed⟩, rfl⟩
      | error fault =>
          rw [placed] at run
          cases run
          simp at clean

theorem packageStatement_ok (run : packageStatement options before = .ok () after)
    (clean : after.errors = before.errors) :
    ∃ package version read, Announced .packageWord package before read ∧
      Placed options package version before.unit.path ∧ after = withPackage read package version := by
  rw [packageStatement_eq] at run
  obtain ⟨⟨package, place⟩, read, announcedRun, entered⟩ := bind_eq_ok.mp run
  have announced : Announced .packageWord package before read :=
    announcement_ok (by decide) announcedRun
  obtain ⟨version, placed, rfl⟩ := enterVersion_ok entered
    (clean.trans announced.same.errors_eq.symm)
  rw [announced.same.unit_eq] at placed
  exact ⟨package, version, read, announced, placed, rfl⟩

theorem Replays.packageStatement {version : Version} {read : ParseState}
    (same : SameButTokens before read)
    (placed : Placed options package version before.unit.path) (spelled : NameWords package words) :
    Replays before (withPackage read package version)
      (statementWords (.packageWord, "package") words) ⊤ (Parse.packageStatement options)
        fun _ => True := by
  rw [packageStatement_eq]
  have announces : Replays before before (statementWords (.packageWord, "package") words) ⊤
      (Parse.announcement .packageWord "\"package\"" "a package name")
        fun result => result.1 = package := announcement spelled
  apply announces.seqSilent
  rintro ⟨found, place⟩ rfl second rest alike tokens _
  have path : second.unit.path = before.unit.path := by rw [alike.unit]
  refine ⟨(), _, enterVersion_run (path ▸ placed), trivial, tokens, ?_⟩
  exact (alike.of_first same).withPackage _ _

end Parse

namespace ParseState

variable {state : ParseState}

theorem KnowsSequenceables.withPackage (knows : state.KnowsSequenceables) (package : String)
    (version : Version) : (Parse.withPackage state package version).KnowsSequenceables where
  trie := (NamespaceTree.interns_intern knows.trie package).trie
  holds unit listed isSequenceable := by
    obtain ⟨type, holds⟩ := knows.holds unit listed isSequenceable
    have keeps := (NamespaceTree.interns_intern knows.trie package).keeps
    exact ⟨type, { holds with leads := holds.leads.of_keeps knows.trie.toWellFormed keeps }⟩

theorem knowsSequenceables_start {program : Program} (reachable : program.Reachable)
    (diagnostics : List Diagnostic) (path : Path) (source : String) :
    (start program diagnostics path source).KnowsSequenceables :=
  ⟨reachable.trie, reachable.holdsSequenceables⟩

theorem named_start (program : Program) (diagnostics : List Diagnostic) (path : Path)
    (source : String) : ∀ token ∈ (start program diagnostics path source).tokens, token.Named :=
  fun token listed => Token.named_scanFrom _ _ token (List.mem_filter.mp listed).1

/-- What the header settles. -/
structure KeepsHeader (before after : ParseState) : Prop where
  unit_eq : after.unit = { before.unit with
    table := after.unit.table
    definitions := after.unit.definitions
    interface := after.unit.interface }
  sequenceables : after.sequenceables = before.sequenceables
  units : after.program.units = before.program.units

instance : AdmitsMembers SourceFault.OfBody KeepsHeader where
  refl _ := ⟨rfl, rfl, rfl⟩
  trans _ _ _ first second :=
    ⟨by rw [second.unit_eq, first.unit_eq], second.sequenceables.trans first.sequenceables,
      second.units.trans first.units⟩
  take _ := ⟨rfl, rfl, rfl⟩
  report _ := ⟨rfl, rfl, rfl⟩
  intern {before key node} _ _ := by
    rw [interned, CompiledUnit.intern]
    cases before.unit.visibleType? key <;> exact ⟨rfl, rfl, rfl⟩
  note := ⟨rfl, rfl, rfl⟩
  amend _ := ⟨rfl, rfl, rfl⟩

end ParseState

/-- The word of an interface declares one. -/
theorem exists_spelled_of_interface {tokens : List Token} {token : Token} (listed : token ∈ tokens)
    (isInterface : token.kind = .interface) :
    ∃ declared ∈ spelledDeclarations tokens, declared.1 = .interface := by
  induction tokens with
  | nil => cases listed
  | cons first rest ih =>
      rw [spelledDeclarations]
      rcases List.mem_cons.mp listed with rfl | later
      · rw [if_pos (by simp [isInterface])]
        exact ⟨_, List.mem_cons_self, isInterface⟩
      · obtain ⟨declared, isDeclared, same⟩ := ih later
        refine ⟨declared, ?_, same⟩
        split
        · exact List.mem_cons_of_mem _ isDeclared
        · exact isDeclared

namespace Program

/-- How a file that is accepted is read: behind its package and the statements of its header, types are
declared up to the end, and what was read is finished. -/
structure ReadsAccepted (options : Options) (start entered opened read : ParseState)
    (statements : List HeaderStatement) (outcome : ParseOutcome) : Prop where
  reads : ReadsHeader options start statements opened
  packaged : packageStatement options start = .ok () entered
  processes : Processes entered statements opened
  quiet : opened.errors = entered.errors
  declares : declarations options opened = .ok () read
  clean : read.errors = 0
  advanced : start.Advances start.types.size read
  accepts : Accepts options start read outcome
  finished : outcome.program = read.withUnits.program

theorem exists_readsAccepted {program : Program} (reachable : program.Reachable)
    {diagnostics : List Diagnostic} {path : Path} {source : String}
    (accepted : (program.parseSource options diagnostics path source).accepted = true) :
    ∃ entered opened read statements,
      ReadsAccepted options (ParseState.start program diagnostics path source) entered opened read
        statements (program.parseSource options diagnostics path source) := by
  obtain ⟨read, early, late, course⟩ := exists_course program options diagnostics path source
  obtain ⟨rfl, rfl⟩ := course.accepted.mp accepted
  have clean : read.errors = 0 := course.clean.mpr rfl
  obtain ⟨result, run⟩ := course.reads
  have silent : read.diagnostics = diagnostics := by
    rw [course.grown]
    exact List.append_nil _
  obtain ⟨statements, opened, reads, -, -⟩ := exists_header_of_clean run clean silent
  obtain ⟨entered, packaged, processes, declares, quiet⟩ :=
    reads.processes_of_clean run clean
  obtain ⟨advanced, rejects | accepts⟩ := parseSource_cases_of_read reachable.wellFormed run
  · rw [rejects.accepted] at accepted
    cases accepted
  · have finished := finishUnit_eq clean accepts.oneThing accepts.contained
    exact ⟨entered, opened, read, statements,
      ⟨reads, packaged, processes, quiet, declares, clean, advanced, accepts, by
        rw [parseSource_of_finished run finished]
        rfl⟩⟩

namespace ReadsAccepted

variable {start entered opened read : ParseState} {statements : List HeaderStatement}
  {outcome : ParseOutcome}
  (reading : ReadsAccepted options start entered opened read statements outcome)

include reading

theorem keepsHeader : opened.KeepsHeader read := by
  have keeps : Runs KeepsHeader (declarations options) := Runs.declarations
  exact keeps.ok reading.declares

theorem clean_entered : entered.errors = 0 := by
  have grown := (Leads.of_run reading.declares Runs.declarations).errors_le
  rw [reading.clean, reading.quiet] at grown
  exact Nat.le_zero.mp grown

/-- The package is a name that suits the place of the file. -/
theorem entersPackage (clean : start.errors = 0) (named : ∀ token ∈ start.tokens, token.Named) :
    ∃ package version behind words, SameButTokens start behind ∧ behind.tokens <:+ start.tokens ∧
      Placed options package version start.unit.path ∧ NameWords package words ∧
        entered = withPackage behind package version := by
  obtain ⟨package, version, behind, announced, placed, rfl⟩ :=
    packageStatement_ok reading.packaged (reading.clean_entered.trans clean.symm)
  obtain ⟨word, rest, semicolon, isAhead, -, reads, -⟩ := announced.statement
  obtain ⟨words, spelled⟩ := Header.nameWords_of_dottedName reads fun token listed =>
    named token (isAhead ▸ List.mem_cons_of_mem _ listed)
  exact ⟨package, version, behind, words, announced.same, announced.suffix, placed, spelled, rfl⟩

theorem headerMoves : Moves SourceFault.OffPlace entered opened := by
  obtain ⟨_, packaged, header, -⟩ := reading.reads
  cases packaged.symm.trans reading.packaged
  exact headerStatements_moves.ok header

/-- No interface is ahead in a file that declares types. -/
theorem noInterface (types : read.unit.interface = none) :
    ∀ token ∈ start.tokens, token.kind ≠ .interface := by
  obtain ⟨declared, whole, -, interfaces⟩ := reading.accepts.built.spelled
  rw [reading.accepts.finished, spelledDeclarations, List.append_nil] at whole
  rw [types, Option.toList_none, List.map_nil] at interfaces
  intro token listed isInterface
  obtain ⟨other, isDeclared, same⟩ := exists_spelled_of_interface listed isInterface
  rw [whole] at isDeclared
  have isListed : other ∈ declared.filter fun declared => declared.1 = .interface :=
    List.mem_filter.mpr ⟨isDeclared, by simpa using same⟩
  rw [← interfaces] at isListed
  cases isListed

/-- Where the declarations start. -/
theorem orderly (types : read.unit.interface = none) (coherent : start.Coherent)
    (clean : start.errors = 0)
    (named : ∀ token ∈ start.tokens, token.Named) : opened.Orderly := by
  have entering := (Runs.packageStatement options).ok reading.packaged
  obtain ⟨recalls, coherentOpened⟩ := reading.headerMoves.coherent (entering.coherent coherent)
  obtain ⟨_, _, behind, _, -, taken, -, -, rfl⟩ := reading.entersPackage clean named
  have suffix : opened.tokens <:+ start.tokens := recalls.tokens.trans taken
  exact
    { coherent := coherentOpened
      named := fun token listed => named token (suffix.subset listed)
      noInterface := fun token listed => reading.noInterface types token (suffix.subset listed) }

end ReadsAccepted

end Program

end DriverIdl
