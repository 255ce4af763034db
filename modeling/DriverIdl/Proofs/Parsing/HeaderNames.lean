import DriverIdl.Proofs.Parsing.Coherence

/-!
# Names of a header

In an accepted file no two imports share a name, nor do two sequenceables, nor an import and a
sequenceable behind it.  A sequenceable in front of an import is compared with the imports by then
only, and one that no unit offers is not among them; so a name may stand in both if the unit that is
imported shows no type of that name.
-/

namespace DriverIdl

open Parse

/-- A unit of the program shows a type under its full name, which a sequenceable of that name
shares. -/
def Program.OffersSequenceable (program : Program) (full : String) : Prop :=
  ∃ id package name namespaceId type, program.find? full = some id ∧
    Package.splitFullName? full = some (package, name) ∧
    program.namespaces.find? package = some namespaceId ∧
    (program.units[id]?.getD default).visibleType? (.named namespaceId name) = some type

namespace HeaderStatement

/-- Two statements may follow each other: their names differ, or the first one is a sequenceable that
no unit offers and the second one imports a unit of that name. -/
def MayFollow (program : Program) (earlier later : HeaderStatement) : Prop :=
  earlier.name = later.name →
    earlier = .sequenceable later.name ∧ later = .importing later.name ∧
      (program.find? later.name).isSome ∧ ¬program.OffersSequenceable later.name

end HeaderStatement

namespace ParseState

variable {before after : ParseState}

/-- What later states know of a program. -/
structure Knows (program : Program) (state : ParseState) : Prop where
  coherent : state.Coherent
  units : state.program.units = program.units
  trie : program.namespaces.Trie
  namespaces : program.namespaces.Keeps state.program.namespaces

theorem Knows.goesOn {program : Program} {sort : SourceFault → Prop} (knows : before.Knows program)
    (moves : Moves sort before after) : after.Knows program := by
  obtain ⟨recalls, coherent⟩ := moves.coherent knows.coherent
  exact ⟨coherent, recalls.units.trans knows.units, knows.trie,
    knows.namespaces.trans recalls.namespaces⟩

theorem Knows.enters {program : Program} (knows : before.Knows program)
    (moves : FileMoves before after) : after.Knows program := by
  induction moves with
  | refl => exact knows
  | tail _ move ih =>
      cases move with
      | move move => exact ih.goesOn (.single move)
      | version => exact ⟨{ ih.coherent with }, ih.units, ih.trie, ih.namespaces⟩
      | @enter package =>
          have interns := NamespaceTree.interns_intern ih.coherent.namespaces package
          exact ⟨{ ih.coherent with namespaces := interns.trie }, ih.units, ih.trie,
            ih.namespaces.trans interns.keeps⟩

/-- A sequenceable that is set aside is one that the program does not offer. -/
theorem Knows.not_offers {program : Program} (knows : before.Knows program)
    {full package name : String} (adds : Adds full package name before after) :
    ¬program.OffersSequenceable full := by
  rintro ⟨id, otherPackage, otherName, namespaceId, type, found, split, isPackage, visible⟩
  obtain ⟨rfl, rfl⟩ : package = otherPackage ∧ name = otherName := by
    simpa [adds.split] using split
  have interns := NamespaceTree.interns_intern knows.coherent.namespaces package
  have leads := (knows.trie.find?_eq_some_iff.mp isPackage).of_keeps knows.trie.toWellFormed
    (knows.namespaces.trans interns.keeps)
  have sameUnits := knows.units
  have hidden := adds.notOffered id (by rwa [Program.find?, sameUnits])
  rw [interns.trie.leads_unique interns.leads leads, unitAt, sameUnits, visible] at hidden
  cases hidden

/-- A statement can still be processed: its name is not imported, a sequenceable is not set aside
either, and what is imported is there. -/
structure Free (program : Program) (state : ParseState) (statement : HeaderStatement) : Prop where
  notImported : ∀ entry ∈ state.unit.imports, entry.1 ≠ statement.name
  notSetAside : ∀ full, statement = .sequenceable full → ∀ entry ∈ state.sequenceables, entry.1 ≠ full
  found : ∀ name, statement = .importing name → (program.find? name).isSome

/-- What is free when more is known was free before. -/
theorem Free.of_subset {program : Program} {statement : HeaderStatement}
    (free : Free program after statement) (imports : before.unit.imports ⊆ after.unit.imports)
    (sequenceables : before.sequenceables ⊆ after.sequenceables) : Free program before statement where
  notImported entry listed := free.notImported entry (imports listed)
  notSetAside full isStatement entry listed :=
    free.notSetAside full isStatement entry (sequenceables listed)
  found := free.found

end ParseState

namespace Parse

open ParseState HeaderStatement

variable {before after : ParseState} {statement later : HeaderStatement} {program : Program}

/-- The tokens in front of a statement tell the statement and the tokens behind it. -/
theorem Announced.reading {keyword : TokenKind} {name : String}
    (announced : Announced keyword name before after) :
    before.tokens.head?.map Token.kind = some keyword ∧
      (Header.dottedName before.tokens.tail).1 = some name ∧
      (Header.dottedName before.tokens.tail).2.tail = after.tokens := by
  obtain ⟨word, rest, semicolon, tokens, isWord, reads, -⟩ := announced.statement
  simp [tokens, isWord, reads]

theorem Announced.knows {keyword : TokenKind} {name : String}
    (announced : Announced keyword name before after) (knows : before.Knows program) :
    after.Knows program := by
  have suffix := announced.suffix
  have spelled := knows.coherent.spelled
  rw [announced.same]
  exact ⟨{ knows.coherent with spelled := fun token listed => spelled token (suffix.mem listed) },
    knows.units, knows.trie, knows.namespaces⟩

/-- A statement that takes effect was free.  What is free behind it was free before, and may follow
it. -/
theorem TakesEffect.free (effect : TakesEffect before after statement)
    (knows : before.Knows program) :
    Free program before statement ∧ ∀ {later}, Free program after later →
      Free program before later ∧ statement.MayFollow program later := by
  have units := knows.units
  have kept := effect.imports_subset
  cases statement with
  | importing name =>
      obtain ⟨id, imports⟩ := effect
      have sequenceables : after.sequenceables = before.sequenceables := by rw [imports.state]
      have listed : (name, id) ∈ after.unit.imports := by rw [imports.state]; simp
      refine ⟨⟨imports.new, fun _ isStatement => (by cases isStatement), ?_⟩, fun free => ?_⟩
      · rintro _ ⟨⟩
        rw [Program.find?, ← units]
        exact Option.isSome_of_eq_some imports.found
      · refine ⟨free.of_subset kept (sequenceables ▸ List.Subset.refl _), fun same => ?_⟩
        exact absurd same (free.notImported _ listed)
  | sequenceable full =>
      obtain ⟨package, name, outcome⟩ := effect
      obtain ⟨type, sees⟩ := exists_sees outcome
      refine ⟨⟨sees.notImported, ?_, fun _ isStatement => (by cases isStatement)⟩,
        fun {later} free => ?_⟩
      · rintro _ ⟨⟩
        exact sees.notSetAside
      rcases outcome with ⟨id, type, shares⟩ | adds
      · have listed : (full, id) ∈ after.unit.imports := by rw [shares.imports]; simp
        refine ⟨free.of_subset kept (shares.sequenceables ▸ List.Subset.refl _), fun same => ?_⟩
        exact absurd same (free.notImported _ listed)
      · have grown : before.sequenceables ⊆ after.sequenceables := by
          rw [adds.sequenceables]
          exact List.subset_append_left _ _
        refine ⟨free.of_subset kept grown, fun same => ?_⟩
        obtain rfl : full = later.name := same
        cases later with
        | importing name => exact ⟨rfl, rfl, free.found _ rfl, knows.not_offers adds⟩
        | sequenceable other =>
            obtain ⟨unit, listed⟩ : ∃ unit, (other, unit) ∈ after.sequenceables := by
              rw [adds.sequenceables]
              exact ⟨_, List.mem_append_right _ (List.mem_singleton.mpr rfl)⟩
            exact absurd rfl (free.notSetAside _ rfl _ listed)

/-- A statement that is processed without a fault was free.  What is free behind it was free before,
and may follow it. -/
theorem Processed.free_of_clean (processed : Processed before statement after)
    (knows : before.Knows program) (clean : after.errors = before.errors) :
    Free program before statement ∧ ∀ {later}, Free program after later →
      Free program before later ∧ statement.MayFollow program later := by
  obtain ⟨read, announced, ⟨place, fault, -, rfl⟩ | effect⟩ := processed.outcome
  · rw [announced.same] at clean
    exact absurd clean (Nat.succ_ne_self _)
  · obtain ⟨free, behind⟩ := effect.free (announced.knows knows)
    have imports : before.unit.imports ⊆ read.unit.imports := by rw [announced.same]; simp
    have sequenceables : before.sequenceables ⊆ read.sequenceables := by rw [announced.same]; simp
    refine ⟨free.of_subset imports sequenceables, fun later => ?_⟩
    exact ⟨(behind later).1.of_subset imports sequenceables, (behind later).2⟩

theorem Processed.knows (processed : Processed before statement after)
    (knows : before.Knows program) : after.Knows program := by
  cases processed with
  | importing announced performed =>
      exact knows.goesOn (Runs.importStatement.ok (bind_eq_ok.mpr ⟨_, _, announced, performed⟩))
  | sequenceable announced performed =>
      exact knows.goesOn
        (Runs.sequenceableStatement.ok (bind_eq_ok.mpr ⟨_, _, announced, performed⟩))

/-- Without a fault every statement may follow every earlier one. -/
theorem Processes.mayFollow_of_clean {statements : List HeaderStatement}
    (run : Processes before statements after) (knows : before.Knows program)
    (clean : after.errors = before.errors) :
    statements.Pairwise (MayFollow program) ∧
      ∀ statement ∈ statements, Free program before statement := by
  induction run with
  | done => exact ⟨.nil, by simp⟩
  | @next before middle after statement others first rest ih =>
      have grown : before.errors ≤ middle.errors := first.errors_le
      have grownToo := rest.errors_le
      have counted : before.counted.Knows program :=
        ⟨{ knows.coherent with }, knows.units, knows.trie, knows.namespaces⟩
      obtain ⟨free, behind⟩ := first.free_of_clean counted (show middle.errors = before.errors by omega)
      obtain ⟨follow, allFree⟩ := ih (first.knows counted) (by omega)
      have asBefore {other} (free : Free program before.counted other) : Free program before other :=
        free.of_subset (List.Subset.refl _) (List.Subset.refl _)
      constructor
      · exact List.pairwise_cons.mpr ⟨fun later listed => (behind (allFree later listed)).2, follow⟩
      · refine List.forall_mem_cons.mpr ⟨asBefore free, fun later listed => ?_⟩
        exact asBefore (behind (allFree later listed)).1

end Parse

namespace Program

open Parse HeaderStatement ParseState

variable {program : Program} {options : Options} {diagnostics : List Diagnostic} {path : Path}
  {source : String}

/-- In the header of every accepted file a name stands in one statement, except that a sequenceable
may precede an import of its name when the imported unit shows no type of that name: two imports, two
sequenceables, or an import in front of a sequenceable never share a name. -/
theorem header_names_are_distinct (reachable : program.Reachable)
    (accepted : (program.parseSource options diagnostics path source).accepted = true) :
    (∃ statements opened,
        ReadsHeader options (start program diagnostics path source) statements opened) ∧
      ∀ statements opened,
        ReadsHeader options (start program diagnostics path source) statements opened →
          statements.Pairwise (MayFollow program) := by
  obtain ⟨read, early, late, course⟩ := exists_course program options diagnostics path source
  obtain ⟨rfl, rfl⟩ := course.accepted.mp accepted
  have clean : read.errors = 0 := course.clean.mpr rfl
  have silent : read.diagnostics = diagnostics := by
    rw [course.grown]
    exact List.append_nil _
  obtain ⟨result, run⟩ := course.reads
  constructor
  · obtain ⟨statements, opened, reads, -⟩ := exists_header_of_clean run clean silent
    exact ⟨statements, opened, reads⟩
  · intro statements opened reads
    obtain ⟨entered, packaged, processes, -, quiet⟩ := reads.processes_of_clean run clean
    have atStart : (start program diagnostics path source).Knows program :=
      ⟨coherent_start reachable diagnostics path source, rfl, reachable.trie, .refl _⟩
    have atEntry := atStart.enters ((Runs.packageStatement options).ok packaged)
    exact (processes.mayFollow_of_clean atEntry quiet).1

/-- The program of one file with a struct. -/
def structProgram : Program :=
  (({} : Program).parseSource {} [] ⟨"a/v1_0/Types.idl"⟩
    "package a.v1_0; struct S \x7b int x; \x7d;").program

/-- A file that names the unit of the struct as a sequenceable first, and imports it then. -/
def sequenceableFirst : String :=
  "package b.v1_0; sequenceable a.v1_0.Types; import a.v1_0.Types; struct T \x7b S s; \x7d;"

/-- The same file with the two statements in the other order. -/
def importFirst : String :=
  "package b.v1_0; import a.v1_0.Types; sequenceable a.v1_0.Types; struct T \x7b S s; \x7d;"

/-- The state in front of the first file. -/
def beforeSequenceable : ParseState :=
  start structProgram [] ⟨"b/v1_0/Types.idl"⟩ sequenceableFirst

/-- The header of that file has both statements. -/
theorem readsHeader_sequenceableFirst :
    (structProgram.parseSource {} [] ⟨"b/v1_0/Types.idl"⟩ sequenceableFirst).accepted = true ∧
      ∃ statements opened,
        ReadsHeader {} beforeSequenceable statements opened ∧
        .sequenceable "a.v1_0.Types" ∈ statements ∧ .importing "a.v1_0.Types" ∈ statements := by
  have accepted : (structProgram.parseSource {} [] ⟨"b/v1_0/Types.idl"⟩
      sequenceableFirst).accepted = true := by decide +kernel
  have isHeader : Header.ofSource ⟨"b/v1_0/Types.idl"⟩ sequenceableFirst =
      .ok ⟨⟨"b/v1_0/Types.idl"⟩, "b.v1_0", "Types", ["a.v1_0.Types"]⟩ := by decide +kernel
  have stem : (⟨"b/v1_0/Types.idl"⟩ : Path).stem? = some "Types" := by decide +kernel
  obtain ⟨statements, opened, read, state, reads, -, -, -, agrees⟩ :=
    header_agrees_with_parseSource structProgram {} [] sequenceableFirst stem accepted
  have same := agrees.symm.trans isHeader
  simp only [Except.ok.injEq, Header.mk.injEq] at same
  obtain ⟨-, -, -, isImport⟩ := same
  refine ⟨accepted, statements, opened, reads, ?_, ?_⟩
  · obtain ⟨package, behind, entered, announced, enters, processes⟩ := reads.cases
    cases processes with
    | done => simp [imports] at isImport
    | @next _ middle _ statement others first rest =>
        obtain ⟨_, announcedToo, -⟩ := first.takes
        have isKind := announcedToo.reading.1
        have isName := announcedToo.reading.2.1
        have tokens : entered.counted.tokens =
            (Header.dottedName beforeSequenceable.tokens.tail).2.tail :=
          enters.tokens.trans announced.reading.2.2.symm
        rw [tokens] at isKind isName
        have kind : (Header.dottedName beforeSequenceable.tokens.tail).2.tail.head?.map Token.kind =
            some .sequenceable := by decide +kernel
        have name : (Header.dottedName
            (Header.dottedName beforeSequenceable.tokens.tail).2.tail.tail).1 =
              some "a.v1_0.Types" := by decide +kernel
        rw [kind] at isKind
        rw [name] at isName
        cases statement with
        | importing _ => cases isKind
        | sequenceable full =>
            cases isName
            exact List.mem_cons_self
  · have listed : "a.v1_0.Types" ∈ imports statements := isImport ▸ List.mem_singleton.mpr rfl
    obtain ⟨statement, isStatement, named⟩ := List.mem_filterMap.mp listed
    cases statement <;> cases named
    exact isStatement

/-- The order of two statements that share a name decides about the file. -/
theorem header_names_may_agree :
    structProgram.Reachable ∧
      (structProgram.parseSource {} [] ⟨"b/v1_0/Types.idl"⟩ importFirst).accepted = false ∧
      (structProgram.parseSource {} [] ⟨"b/v1_0/Types.idl"⟩ importFirst).diagnostics.map
        Diagnostic.message = ["\"a.v1_0.Types\" is imported twice"] ∧
      (structProgram.parseSource {} [] ⟨"b/v1_0/Types.idl"⟩ sequenceableFirst).accepted = true ∧
      ∃ statements opened,
        ReadsHeader {} beforeSequenceable statements opened ∧
        ¬(statements.map HeaderStatement.name).Nodup := by
  obtain ⟨accepted, statements, opened, reads, isSequenceable, isImport⟩ :=
    readsHeader_sequenceableFirst
  refine ⟨.parse _ _ _ _ .empty, by decide +kernel, by decide +kernel, accepted, statements, opened,
    reads, fun nodup => ?_⟩
  have same := List.inj_on_of_nodup_map nodup isSequenceable isImport rfl
  cases same

/-- There the sequenceable stands in front, and the unit shows no type of its name. -/
theorem header_names_are_distinct_sequenceableFirst :
    (structProgram.parseSource {} [] ⟨"b/v1_0/Types.idl"⟩ sequenceableFirst).accepted = true ∧
      ∃ statements opened,
        ReadsHeader {} beforeSequenceable statements opened ∧
        .sequenceable "a.v1_0.Types" ∈ statements ∧ .importing "a.v1_0.Types" ∈ statements ∧
        statements.Pairwise (MayFollow structProgram) := by
  obtain ⟨accepted, statements, opened, reads, isSequenceable, isImport⟩ :=
    readsHeader_sequenceableFirst
  exact ⟨accepted, statements, opened, reads, isSequenceable, isImport,
    (header_names_are_distinct (.parse _ _ _ _ .empty) accepted).2 statements opened reads⟩

end Program

end DriverIdl
