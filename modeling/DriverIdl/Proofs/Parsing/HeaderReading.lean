import DriverIdl.Header
import DriverIdl.Proofs.Grammar.Passing
import DriverIdl.Proofs.Grammar.Soundness
import DriverIdl.Proofs.Parsing.Faults
import DriverIdl.Proofs.Program.Accounting
import DriverIdl.Proofs.Program.Rejection

/-!
# Two readings of a header

A header is read twice: ahead of a run, to find the files it needs, and by the parser, which
processes its statements one by one.  `Processes` traces the second reading.  As long as no fault of
a token or of the grammar is reported, both readings see the same statements, so the imports that
are listed ahead are those that the parser processes; in an accepted text none is processed twice.
-/

namespace DriverIdl

/-- A statement behind the package. -/
inductive HeaderStatement where
  | importing (name : String)
  | sequenceable (name : String)
  deriving DecidableEq

namespace HeaderStatement

/-- The word that a statement starts with. -/
def keyword : HeaderStatement → TokenKind
  | .importing _ => .importWord
  | .sequenceable _ => .sequenceable

/-- The name that stands in a statement. -/
def name : HeaderStatement → String
  | .importing name | .sequenceable name => name

/-- The unit that a statement imports. -/
def imported? : HeaderStatement → Option String
  | .importing name => some name
  | .sequenceable _ => none

/-- The units that statements import, in order. -/
def imports (statements : List HeaderStatement) : List String := statements.filterMap imported?

/-- The imports that are known behind a statement, each once. -/
def collect (known : List String) : HeaderStatement → List String
  | .importing name => if known.contains name then known else known ++ [name]
  | .sequenceable _ => known

@[simp]
theorem imports_importing (name : String) (rest : List HeaderStatement) :
    imports (.importing name :: rest) = name :: imports rest := rfl

@[simp]
theorem imports_sequenceable (name : String) (rest : List HeaderStatement) :
    imports (.sequenceable name :: rest) = imports rest := rfl

theorem mem_collect {name : String} {known : List String} {statement : HeaderStatement} :
    name ∈ collect known statement ↔ name ∈ known ∨ statement = .importing name := by
  cases statement with
  | sequenceable other => simp [collect]
  | importing other =>
      by_cases listed : other ∈ known
      · rw [collect, if_pos (by simpa using listed)]
        grind
      · rw [collect, if_neg (by simpa using listed)]
        grind

/-- Whatever is imported is collected, however often. -/
theorem mem_foldl_collect {name : String} {known : List String}
    {statements : List HeaderStatement} :
    name ∈ statements.foldl collect known ↔ name ∈ known ∨ name ∈ imports statements := by
  induction statements generalizing known with
  | nil => simp [imports]
  | cons statement rest ih =>
      rw [List.foldl_cons, ih, mem_collect]
      cases statement <;> grind [imports_importing, imports_sequenceable]

/-- Imports that are all different are collected as they stand. -/
theorem foldl_collect_of_nodup {known : List String} {statements : List HeaderStatement}
    (nodup : (known ++ imports statements).Nodup) :
    statements.foldl collect known = known ++ imports statements := by
  induction statements generalizing known with
  | nil => simp [imports]
  | cons statement rest ih =>
      cases statement with
      | sequenceable other => exact ih nodup
      | importing other =>
          have new : other ∉ known := fun listed =>
            (List.nodup_append.mp nodup).2.2 other listed other (by simp) rfl
          rw [imports_importing, List.append_cons] at nodup ⊢
          rw [List.foldl_cons, collect, if_neg (by simpa using new)]
          exact ih nodup

end HeaderStatement

namespace Header

section Collect

variable {word semicolon : Token} {rest others : List Token} {name : String} (known : List String)

theorem afterSemicolon_append {taken : List Token}
    (kinds : ∀ token ∈ taken, token.kind ≠ .semicolon) (isSemicolon : semicolon.kind = .semicolon) :
    afterSemicolon (taken ++ semicolon :: rest) = rest := by
  induction taken with
  | nil => rw [List.nil_append, afterSemicolon, if_pos isSemicolon]
  | cons token others ih =>
      rw [List.cons_append, afterSemicolon, if_neg (kinds token (by simp)),
        ih fun other listed => kinds other (by simp [listed])]

theorem collectImports_import (isWord : word.kind = .importWord)
    (reads : dottedName rest = (some name, semicolon :: others))
    (isSemicolon : semicolon.kind = .semicolon) :
    collectImports known (word :: rest) =
      collectImports (HeaderStatement.collect known (.importing name)) others := by
  obtain ⟨semicolonKind, text, place⟩ := semicolon
  subst isSemicolon
  rw [collectImports, if_pos isWord]
  split
  · rename_i found _ _ behind parts
    rw [reads] at parts
    cases parts
    rfl
  · rename_i unlike parts
    rw [reads] at parts
    cases parts
    exact (unlike _ _ _ _ rfl rfl).elim

theorem collectImports_sequenceable (isWord : word.kind = .sequenceable)
    (reads : dottedName rest = (some name, semicolon :: others))
    (isSemicolon : semicolon.kind = .semicolon) :
    collectImports known (word :: rest) = collectImports known others := by
  obtain ⟨taken, rfl, kinds, -⟩ := dottedName_eq_some reads
  rw [collectImports, if_neg (by rw [isWord]; decide), if_pos isWord, ← List.cons_append,
    afterSemicolon_append _ isSemicolon]
  intro token listed
  rcases List.mem_cons.mp listed with rfl | inName
  · rw [isWord]
    decide
  · rcases kinds token inName with isKind | isKind <;> rw [isKind] <;> decide

theorem collectImports_end (noImport : word.kind ≠ .importWord)
    (noSequenceable : word.kind ≠ .sequenceable) : collectImports known (word :: rest) = known := by
  rw [collectImports, if_neg noImport, if_neg noSequenceable]

end Collect

end Header

namespace ParseState

variable {before middle after : ParseState}

/-- Between two states a fault of a token or of the grammar was reported. -/
def Loud (before after : ParseState) : Prop :=
  ∃ found, after.diagnostics = before.diagnostics ++ found ∧
    ∃ diagnostic ∈ found, diagnostic.fault.isQuiet = false

theorem Loud.goesOn (loud : Loud before middle) (later : middle.diagnostics <+: after.diagnostics) :
    Loud before after := by
  obtain ⟨found, grown, diagnostic, listed, isLoud⟩ := loud
  obtain ⟨more, grownToo⟩ := later
  refine ⟨found ++ more, by rw [← grownToo, grown, List.append_assoc], diagnostic, ?_, isLoud⟩
  exact List.mem_append_left _ listed

theorem Loud.behind (loud : Loud middle after)
    (earlier : before.diagnostics <+: middle.diagnostics) : Loud before after := by
  obtain ⟨found, grown, diagnostic, listed, isLoud⟩ := loud
  obtain ⟨less, grownToo⟩ := earlier
  refine ⟨less ++ found, by rw [grown, ← grownToo, List.append_assoc], diagnostic, ?_, isLoud⟩
  exact List.mem_append_right _ listed

theorem Reported.grown {sort : SourceFault → Prop} (reported : Reported sort before after) :
    before.diagnostics <+: after.diagnostics := by
  obtain ⟨found, grown, -⟩ := reported.faults
  exact ⟨found, grown.symm⟩

end ParseState

namespace Parse

open ParseState HeaderStatement

variable {before middle after : ParseState} {options : Options}

/-- Any fault at all. -/
abbrev anyFault : SourceFault → Prop := fun _ => True

theorem isQuiet_unexpectedFault (token : Token) (expected : String) :
    (unexpectedFault token expected).isQuiet = false := by
  unfold unexpectedFault
  split
  · split <;> rfl
  · rfl

/-- A word, a name and a semicolon are read, unless the tokens or the grammar are at fault. -/
theorem loud_of_announcement {keyword : TokenKind} {word expected : String} {fault : Resync}
    (notEnd : keyword ≠ .eof)
    (run : announcement keyword word expected before = .error fault after) :
    Loud before after := by
  have reports :
      Reports (fun fault => fault.isQuiet = false) (announcement keyword word expected) :=
    .of_moves (.announcement isQuiet_unexpectedFault keyword word expected)
  obtain ⟨found, grown, loud⟩ := (reports.error run).faults
  have spells : Derives before (announcement keyword word expected) _ := Spells.announcement notEnd
  have more := spells.error run
  cases found with
  | nil =>
      rw [(reports.error run).counted (by rw [grown, List.append_nil])] at more
      exact absurd more (Nat.lt_irrefl _)
  | cons first rest => exact ⟨_, grown, first, by simp, loud first (by simp)⟩

/-- One statement is processed: it is read up to its semicolon, and then it takes its effect or is
refused. -/
inductive Processed : ParseState → HeaderStatement → ParseState → Prop where
  | importing {before read after : ParseState} {name : String} {place : Position}
      (announced : announcement .importWord "\"import\"" "an imported unit name" before =
        .ok (name, place) read)
      (performed : importUnit name place read = .ok () after) :
      Processed before (.importing name) after
  | sequenceable {before read after : ParseState} {name : String} {place : Position}
      (announced : announcement .sequenceable "\"sequenceable\"" "a sequenceable name" before =
        .ok (name, place) read)
      (performed : declareSequenceable name place read = .ok () after) :
      Processed before (.sequenceable name) after

/-- Statements are processed one after another, each in a round of its own, up to a token that starts
none. -/
inductive Processes : ParseState → List HeaderStatement → ParseState → Prop where
  | done {state : ParseState} (noImport : (ahead state).kind ≠ .importWord)
      (noSequenceable : (ahead state).kind ≠ .sequenceable) : Processes state [] state.counted
  | next {before middle after : ParseState} {statement : HeaderStatement}
      {others : List HeaderStatement} (first : Processed before.counted statement middle)
      (rest : Processes middle others after) : Processes before (statement :: others) after

/-- Why a statement is refused. -/
def Refused (state : ParseState) : HeaderStatement → SourceFault → Prop
  | .importing name => ImportFault state name
  | .sequenceable name => SequenceableFault name

/-- What a statement does that is not refused. -/
def TakesEffect (before after : ParseState) : HeaderStatement → Prop
  | .importing name => ∃ id, Imports name id before after
  | .sequenceable full => ∃ package name,
      (∃ id type, Shares full package name id type before after) ∨
        Adds full package name before after

/-- Nothing is taken, reported, added or renamed. -/
structure Silent (before after : ParseState) : Prop where
  tokens : after.tokens = before.tokens
  errors : after.errors = before.errors
  diagnostics : after.diagnostics = before.diagnostics
  units : after.program.units = before.program.units
  package : after.unit.package = before.unit.package
  name : after.unit.name = before.unit.name

section Effect

variable {statement : HeaderStatement} (effect : TakesEffect before after statement)

include effect

theorem TakesEffect.silent : Silent before after := by
  cases statement with
  | importing name =>
      obtain ⟨id, imports⟩ := effect
      rw [imports.state]
      exact ⟨rfl, rfl, rfl, rfl, rfl, rfl⟩
  | sequenceable full =>
      obtain ⟨package, name, outcome⟩ := effect
      obtain ⟨type, sees⟩ := exists_sees outcome
      have unit := sees.unit
      rw [sees.state]
      exact ⟨rfl, rfl, rfl, rfl, by rw [unit], by rw [unit]⟩

theorem TakesEffect.imports_subset : before.unit.imports ⊆ after.unit.imports := by
  cases statement with
  | importing name =>
      obtain ⟨id, imports⟩ := effect
      rw [imports.state]
      exact List.subset_append_left _ _
  | sequenceable full =>
      obtain ⟨package, name, ⟨id, type, shares⟩ | adds⟩ := effect
      · rw [shares.imports]
        exact List.subset_append_left _ _
      · rw [adds.imports]
        exact List.Subset.refl _

end Effect

namespace Processed

variable {statement : HeaderStatement} (processed : Processed before statement after)

include processed

/-- A processed statement is refused with a fault of its own, or takes its effect. -/
theorem outcome : ∃ read, Announced statement.keyword statement.name before read ∧
    ((∃ place fault, Refused read statement fault ∧ after =
        { read with
          errors := read.errors + 1
          diagnostics := read.diagnostics ++ [⟨read.unit.path, place, fault⟩] }) ∨
      TakesEffect read after statement) := by
  cases processed with
  | importing announced performed =>
      rename_i read name place
      refine ⟨read, announcement_ok (by decide) announced, ?_⟩
      rcases importUnit_cases name place read with ⟨fault, refused, run⟩ | ⟨id, state, run, imports⟩
      · cases run.symm.trans performed
        exact .inl ⟨place, fault, refused, rfl⟩
      · cases run.symm.trans performed
        exact .inr ⟨id, imports⟩
  | sequenceable announced performed =>
      rename_i read name place
      refine ⟨read, announcement_ok (by decide) announced, ?_⟩
      rcases declareSequenceable_cases name place read with
        ⟨fault, refused, run⟩ | ⟨package, short, state, run, sees⟩
      · cases run.symm.trans performed
        exact .inl ⟨place, fault, refused, rfl⟩
      · cases run.symm.trans performed
        exact .inr ⟨package, short, sees⟩

/-- The tokens of the statement are taken, and no unit is added. -/
theorem takes : ∃ read, Announced statement.keyword statement.name before read ∧
    after.tokens = read.tokens ∧ after.program.units = before.program.units := by
  obtain ⟨read, announced, ⟨place, fault, -, rfl⟩ | effect⟩ := processed.outcome
  · exact ⟨read, announced, rfl, by rw [announced.same]⟩
  · exact ⟨read, announced, effect.silent.tokens, by rw [effect.silent.units, announced.same]⟩

theorem length_lt : after.tokens.length < before.tokens.length := by
  obtain ⟨read, announced, tokens, -⟩ := processed.takes
  rw [tokens]
  exact announced.length_lt

theorem reported : Reported anyFault before after := by
  obtain ⟨read, announced, ⟨place, fault, -, rfl⟩ | effect⟩ := processed.outcome
  · rw [announced.same]
    exact .one trivial announced.suffix rfl rfl rfl
  · have silent := effect.silent
    have tokens : after.tokens <:+ before.tokens := silent.tokens ▸ announced.suffix
    rw [announced.same] at silent
    exact .of_eq tokens silent.package silent.name silent.diagnostics silent.errors

/-- Only an import of a unit that is not there is refused as not compiled. -/
theorem of_notCompiled {diagnostic : Diagnostic} {name : String}
    (listed : diagnostic ∈ after.diagnostics) (isFault : diagnostic.fault = .notCompiled name) :
    diagnostic ∈ before.diagnostics ∨
      statement = .importing name ∧ before.program.find? name = none := by
  obtain ⟨read, announced, ⟨place, fault, refused, rfl⟩ | effect⟩ := processed.outcome
  · rw [announced.same] at refused listed
    rcases List.mem_append.mp listed with isEarly | isNew
    · exact .inl isEarly
    · obtain rfl := List.mem_singleton.mp isNew
      obtain rfl : fault = .notCompiled name := isFault
      cases statement with
      | sequenceable other => cases refused
      | importing other =>
          cases refused with
          | notCompiled absent => exact .inr ⟨rfl, absent⟩
  · rw [effect.silent.diagnostics, announced.same] at listed
    exact .inl listed

theorem errors_le : before.errors ≤ after.errors := by
  obtain ⟨read, announced, ⟨place, fault, -, rfl⟩ | effect⟩ := processed.outcome
  · rw [announced.same]
    exact Nat.le_succ _
  · rw [effect.silent.errors, announced.same]

/-- An import that is not refused is new, and is known from then on. -/
theorem new_of_clean (clean : after.errors = before.errors) :
    before.unit.imports ⊆ after.unit.imports ∧
      ∀ name, statement = .importing name →
        (∀ entry ∈ before.unit.imports, entry.1 ≠ name) ∧
          ∃ id, (name, id) ∈ after.unit.imports := by
  obtain ⟨read, announced, ⟨place, fault, -, rfl⟩ | effect⟩ := processed.outcome
  · rw [announced.same] at clean
    exact absurd clean (Nat.succ_ne_self _)
  · have kept := effect.imports_subset
    rw [announced.same] at effect kept
    refine ⟨kept, ?_⟩
    rintro name rfl
    obtain ⟨id, imports⟩ := effect
    refine ⟨imports.new, id, ?_⟩
    rw [imports.state]
    simp

/-- The reading ahead goes over the statement as well, and lists what it imports. -/
theorem collectImports_eq (known : List String) :
    Header.collectImports known before.tokens =
      Header.collectImports (statement.collect known) after.tokens := by
  obtain ⟨read, announced, tokens, -⟩ := processed.takes
  obtain ⟨word, rest, semicolon, isBefore, isWord, reads, isSemicolon⟩ := announced.statement
  rw [isBefore, tokens]
  cases statement with
  | importing name => exact Header.collectImports_import known isWord reads isSemicolon
  | sequenceable name => exact Header.collectImports_sequenceable known isWord reads isSemicolon

end Processed

namespace Processes

variable {statements : List HeaderStatement} (run : Processes before statements after)

include run

theorem reported : Reported anyFault before after := by
  induction run with
  | @done state => exact .inRound state
  | @next before _ _ _ _ first _ ih =>
      exact (Reported.inRound before).trans (first.reported.trans ih)

theorem errors_le : before.errors ≤ after.errors := by
  induction run with
  | done => exact Nat.le_refl _
  | next first _ ih => exact Nat.le_trans first.errors_le ih

/-- An import that is refused as not compiled is one of the statements. -/
theorem of_notCompiled {diagnostic : Diagnostic} {name : String}
    (listed : diagnostic ∈ after.diagnostics) (isFault : diagnostic.fault = .notCompiled name) :
    diagnostic ∈ before.diagnostics ∨
      name ∈ imports statements ∧ before.program.find? name = none := by
  induction run with
  | done => exact .inl listed
  | @next before middle after statement others first _ ih =>
      rcases ih listed with early | ⟨isImport, absent⟩
      · refine (first.of_notCompiled early isFault).imp_right fun ⟨isStatement, absent⟩ => ?_
        exact ⟨by simp [isStatement], absent⟩
      · obtain ⟨-, -, -, units⟩ := first.takes
        refine .inr ⟨?_, by rwa [Program.find?, units] at absent⟩
        cases statement <;> simp [isImport]

/-- Without a fault no import is processed twice. -/
theorem nodup_of_clean (clean : after.errors = before.errors) :
    (imports statements).Nodup ∧
      ∀ name ∈ imports statements, ∀ entry ∈ before.unit.imports, entry.1 ≠ name := by
  induction run with
  | done => exact ⟨.nil, by simp [imports]⟩
  | @next before middle after statement others first rest ih =>
      have grown : before.errors ≤ middle.errors := first.errors_le
      have grownToo := rest.errors_le
      obtain ⟨kept, new⟩ := first.new_of_clean (show middle.errors = before.errors by omega)
      obtain ⟨nodup, unlike⟩ := ih (by omega)
      have older : ∀ name ∈ imports others, ∀ entry ∈ before.unit.imports, entry.1 ≠ name :=
        fun name listed entry known => unlike name listed entry (kept known)
      cases statement with
      | sequenceable full => exact ⟨nodup, older⟩
      | importing name =>
          obtain ⟨isNew, id, added⟩ := new name rfl
          rw [imports_importing]
          refine ⟨List.nodup_cons.mpr ⟨fun again => ?_, nodup⟩, ?_⟩
          · exact unlike name again (name, id) added rfl
          · exact List.forall_mem_cons.mpr ⟨isNew, older⟩

/-- The reading ahead lists the imports that the parser processes. -/
theorem collectImports_eq (known : List String) :
    Header.collectImports known before.tokens = statements.foldl collect known := by
  induction run generalizing known with
  | next first _ ih =>
      rw [List.foldl_cons, ← ih]
      exact first.collectImports_eq known
  | @done state noImport noSequenceable =>
      cases ahead : state.tokens with
      | nil => rw [Header.collectImports, List.foldl_nil]
      | cons token rest =>
          rw [Parse.ahead, ahead, List.headD_cons] at noImport noSequenceable
          rw [Header.collectImports_end known noImport noSequenceable, List.foldl_nil]

end Processes

section Rounds

/-- One round that reads a statement, and goes on behind it if it is broken. -/
def statementRound (production : Parse Unit) : Parse (Unit ⊕ Unit) := do
  if (← attempt production).isNone then recoverStatement
  return .inl ()

theorem headerRound_eq (state : ParseState) :
    headerRound () state =
      match (ahead state).kind with
      | .importWord => statementRound importStatement state
      | .sequenceable => statementRound sequenceableStatement state
      | _ => .ok (.inr ()) state := by
  simp only [headerRound, Bind.bind, EStateM.bind, peek_run]
  generalize (ahead state).kind = kind
  cases kind <;> rfl

section Statement

variable {keyword : TokenKind} {word expected : String}
  {perform : String → Position → Parse Unit}

/-- A statement is read and performed, unless reading it finds a fault. -/
theorem statementRound_cases (notEnd : keyword ≠ .eof)
    (performs : ∀ name place state, ∃ after, perform name place state = .ok () after)
    (state : ParseState) : ∃ after,
    statementRound (do
        let (name, place) ← announcement keyword word expected
        perform name place) state = .ok (.inl ()) after ∧
      ((∃ name place read, announcement keyword word expected state = .ok (name, place) read ∧
          perform name place read = .ok () after) ∨ Loud state after) := by
  cases run : announcement keyword word expected state with
  | error fault failed =>
      obtain ⟨rounds, recovered⟩ := recoverStatement_run failed
      have recovers : Moves anyFault failed _ := Runs.recoverStatement.ok recovered
      refine ⟨_, ?_, .inr ((loud_of_announcement notEnd run).goesOn
        (Reported.of_moves recovers).grown)⟩
      simp only [statementRound, attempt, Bind.bind, EStateM.bind, run, Option.isNone_none, if_true,
        recovered]
      rfl
  | ok named read =>
      obtain ⟨name, place⟩ := named
      obtain ⟨after, performed⟩ := performs name place read
      refine ⟨after, ?_, .inl ⟨name, place, read, rfl, performed⟩⟩
      simp only [statementRound, attempt, Bind.bind, EStateM.bind, run, performed]
      rfl

end Statement

theorem importRound_cases (state : ParseState) : ∃ after,
    statementRound importStatement state = .ok (.inl ()) after ∧
      ((∃ name, Processed state (.importing name) after) ∨ Loud state after) := by
  have performs : ∀ name place state, ∃ after, importUnit name place state = .ok () after := by
    intro name place state
    rcases importUnit_cases name place state with ⟨fault, -, run⟩ | ⟨id, after, run, -⟩
    · exact ⟨_, run⟩
    · exact ⟨after, run⟩
  have notEnd : TokenKind.importWord ≠ .eof := by decide
  obtain ⟨after, run, outcome⟩ := statementRound_cases notEnd performs state
  refine ⟨after, run, outcome.imp_left ?_⟩
  rintro ⟨name, place, read, announced, performed⟩
  exact ⟨name, .importing announced performed⟩

theorem sequenceableRound_cases (state : ParseState) : ∃ after,
    statementRound sequenceableStatement state = .ok (.inl ()) after ∧
      ((∃ name, Processed state (.sequenceable name) after) ∨ Loud state after) := by
  have performs : ∀ name place state, ∃ after,
      declareSequenceable name place state = .ok () after := by
    intro name place state
    rcases declareSequenceable_cases name place state with
      ⟨fault, -, run⟩ | ⟨package, short, after, run, -⟩
    · exact ⟨_, run⟩
    · exact ⟨after, run⟩
  have notEnd : TokenKind.sequenceable ≠ .eof := by decide
  obtain ⟨after, run, outcome⟩ := statementRound_cases notEnd performs state
  refine ⟨after, run, outcome.imp_left ?_⟩
  rintro ⟨name, place, read, announced, performed⟩
  exact ⟨name, .sequenceable announced performed⟩

/-- A round processes a statement, or finds a fault of a token or of the grammar, or it is at the
end of the header. -/
theorem headerRound_cases (state : ParseState) :
    (∃ after, headerRound () state = .ok (.inl ()) after ∧
        ((∃ statement, Processed state statement after) ∨ Loud state after)) ∨
      (headerRound () state = .ok (.inr ()) state ∧
        (ahead state).kind ≠ .importWord ∧ (ahead state).kind ≠ .sequenceable) := by
  rw [headerRound_eq]
  split
  · obtain ⟨after, run, outcome⟩ := importRound_cases state
    exact .inl ⟨after, run, outcome.imp_left fun ⟨name, processed⟩ => ⟨_, processed⟩⟩
  · obtain ⟨after, run, outcome⟩ := sequenceableRound_cases state
    exact .inl ⟨after, run, outcome.imp_left fun ⟨name, processed⟩ => ⟨_, processed⟩⟩
  · rename_i noImport noSequenceable
    exact .inr ⟨rfl, noImport, noSequenceable⟩

theorem headerRound_moves : Runs (Moves SourceFault.OffPlace) (headerRound ()) := by
  have statement {production : Parse Unit} (runs : Runs (Moves SourceFault.OffPlace) production) :
      Runs (Moves SourceFault.OffPlace) (statementRound production) :=
    .bind runs.attempt fun _ => .ite (.bind .recoverStatement fun _ => .pure _) (.pure _)
  intro state
  rw [stateAfter, headerRound_eq]
  generalize (ahead state).kind = kind
  cases kind
  case importWord => exact statement .importStatement state
  case sequenceable => exact statement .sequenceableStatement state
  all_goals exact .refl

theorem headerStatements_moves : Runs (Moves SourceFault.OffPlace) headerStatements :=
  .loop fun _ => headerRound_moves

/-- The rounds process the statements of the header up to its end, unless a fault of a token or of
the grammar is found. -/
theorem headerRounds_cases (rounds : Nat) (state : ParseState)
    (enough : state.tokens.length < rounds) :
    (∃ statements after, loopWithin (round headerRound) rounds () state = .ok () after ∧
        Processes state statements after) ∨
      Loud state (stateAfter (loopWithin (round headerRound) rounds ()) state) := by
  induction rounds generalizing state with
  | zero => exact absurd enough (Nat.not_lt_zero _)
  | succ rounds ih =>
      rcases headerRound_cases state.counted with
        ⟨middle, run, outcome⟩ | ⟨run, noImport, noSequenceable⟩
      · have opened : loopWithin (round headerRound) (rounds + 1) () state =
            loopWithin (round headerRound) rounds () middle := loopWithin_more rounds run
        rw [stateAfter, opened]
        rcases outcome with ⟨statement, processed⟩ | loud
        · have shorter : middle.tokens.length < state.tokens.length := processed.length_lt
          rcases ih middle (by omega) with ⟨statements, after, rest, processes⟩ | loud
          · exact .inl ⟨statement :: statements, after, rest, .next processed processes⟩
          · exact .inr (loud.behind processed.reported.grown)
        · have each : Moves SourceFault.OffPlace middle _ :=
            Runs.loopWithin (fun _ => .round headerRound_moves) rounds () middle
          exact .inr (loud.goesOn (Reported.of_moves each).grown)
      · exact .inl ⟨[], state.counted, loopWithin_done rounds run, .done noImport noSequenceable⟩

theorem headerStatements_cases (state : ParseState) :
    (∃ statements after, headerStatements state = .ok () after ∧
        Processes state statements after) ∨
      Loud state (stateAfter headerStatements state) := by
  exact headerRounds_cases (state.tokens.length + 1) state (Nat.lt_succ_self _)

end Rounds

section Files

/-- A package is entered. -/
structure Enters (package : String) (before after : ParseState) : Prop where
  tokens : after.tokens = before.tokens
  units : after.program.units = before.program.units
  package : after.unit.package = package
  name : after.unit.name = before.unit.name
  faults : ∃ found, after.diagnostics = before.diagnostics ++ found ∧
    ∀ diagnostic ∈ found, ∀ name, diagnostic.fault ≠ .notCompiled name

theorem enterPackage_run (package : String) (place : Position) (state : ParseState) :
    ∃ after, enterPackage options package place state = .ok () after ∧
      Enters package state after := by
  simp only [enterPackage, Bind.bind, EStateM.bind, get_run]
  cases options.checkPlacement package state.unit.path with
  | ok placed => exact ⟨_, rfl, rfl, rfl, rfl, rfl, [], by simp, by simp⟩
  | error fault => exact ⟨_, rfl, rfl, rfl, rfl, rfl, _, rfl, by simp⟩

/-- The package is read and entered, unless reading it finds a fault of a token or of the
grammar. -/
theorem packageStatement_cases (state : ParseState) :
    (∃ package read after, Announced .packageWord package state read ∧
        packageStatement options state = .ok () after ∧ Enters package read after) ∨
      ∃ fault after, packageStatement options state = .error fault after ∧ Loud state after := by
  cases run : announcement .packageWord "\"package\"" "a package name" state with
  | error fault after =>
      refine .inr ⟨fault, after, ?_, loud_of_announcement (by decide) run⟩
      simp only [packageStatement, Bind.bind, EStateM.bind, run]
  | ok named read =>
      obtain ⟨package, place⟩ := named
      have announced : Announced .packageWord package state read := announcement_ok (by decide) run
      refine .inl ⟨package, read, ?_⟩
      simp only [packageStatement, Bind.bind, EStateM.bind, run]
      cases Package.version package with
      | ok version =>
          obtain ⟨after, entered, enters⟩ := @enterPackage_run options package place
            { read with unit := { read.unit with version := version } }
          exact ⟨after, announced, entered, enters.tokens, enters.units, enters.package,
            enters.name, enters.faults⟩
      | error fault =>
          obtain ⟨after, entered, enters⟩ := @enterPackage_run options package place
            (stateAfter (report place (.package fault)) read)
          obtain ⟨found, grown, others⟩ := enters.faults
          refine ⟨after, announced, entered, enters.tokens, enters.units, enters.package,
            enters.name, ⟨read.unit.path, place, .package fault⟩ :: found, ?_, ?_⟩
          · rw [grown]
            exact List.append_assoc _ _ _
          · exact List.forall_mem_cons.mpr ⟨by simp, others⟩

/-- The parser has read a header: it has entered the package and processed statements, up to the
first declaration. -/
def ReadsHeader (options : Options) (start : ParseState) (statements : List HeaderStatement)
    (opened : ParseState) : Prop :=
  ∃ entered, packageStatement options start = .ok () entered ∧
    headerStatements entered = .ok () opened ∧ Processes entered statements opened

section ReadsHeader

variable {start opened : ParseState} {statements : List HeaderStatement}
  (reads : ReadsHeader options start statements opened)

include reads

theorem ReadsHeader.cases : ∃ package read entered,
    Announced .packageWord package start read ∧ Enters package read entered ∧
      Processes entered statements opened := by
  obtain ⟨entered, run, -, processes⟩ := reads
  rcases @packageStatement_cases options start with
    ⟨package, read, after, announced, runToo, enters⟩ | ⟨fault, after, runToo, -⟩
  · cases runToo.symm.trans run
    exact ⟨package, read, entered, announced, enters, processes⟩
  · cases runToo.symm.trans run

theorem ReadsHeader.name : opened.unit.name = start.unit.name := by
  obtain ⟨package, read, entered, announced, enters, processes⟩ := reads.cases
  rw [processes.reported.name, enters.name, announced.same]

/-- An import that is refused as not compiled is one of the header. -/
theorem ReadsHeader.of_notCompiled {diagnostic : Diagnostic} {name : String}
    (listed : diagnostic ∈ opened.diagnostics) (isFault : diagnostic.fault = .notCompiled name) :
    diagnostic ∈ start.diagnostics ∨
      name ∈ imports statements ∧ start.program.find? name = none := by
  obtain ⟨package, read, entered, announced, enters, processes⟩ := reads.cases
  rcases processes.of_notCompiled listed isFault with early | ⟨isImport, absent⟩
  · obtain ⟨found, grown, others⟩ := enters.faults
    rw [grown, announced.same] at early
    exact .inl ((List.mem_append.mp early).resolve_right fun isNew =>
      others diagnostic isNew name isFault)
  · rw [Program.find?, enters.units, announced.same] at absent
    exact .inr ⟨isImport, absent⟩

end ReadsHeader

/-- A file is read behind its header, unless a fault of a token or of the grammar is found. -/
theorem file_cases (start : ParseState) :
    (∃ statements opened, ReadsHeader options start statements opened ∧
        file options start = declarations options opened) ∨
      Loud start (stateAfter (file options) start) := by
  rcases @packageStatement_cases options start with
    ⟨package, read, entered, announced, run, enters⟩ | ⟨fault, after, run, loud⟩
  · have grown : start.diagnostics <+: entered.diagnostics := by
      obtain ⟨found, grown, -⟩ := enters.faults
      rw [grown, announced.same]
      exact List.prefix_append _ _
    have opensFile : stateAfter (file options) start =
        stateAfter (do headerStatements; declarations options) entered := stateAfter_bind run
    rcases headerStatements_cases entered with ⟨statements, opened, header, processes⟩ | loud
    · refine .inl ⟨statements, opened, ⟨entered, run, header, processes⟩, ?_⟩
      simp only [file, Bind.bind, EStateM.bind, run, header]
    · refine .inr (Loud.behind ?_ grown)
      rw [opensFile]
      cases header : headerStatements entered with
      | error fault after =>
          rw [stateAfter_bind_error header]
          exact stateAfter_error header ▸ loud
      | ok value opened =>
          rw [stateAfter_bind header]
          rw [stateAfter_ok header] at loud
          exact loud.goesOn (Reports.declarations opened).grown
  · have opensFile : stateAfter (file options) start = after := stateAfter_bind_error run
    exact .inr (opensFile ▸ loud)

/-- When a file has no fault, it is read to its end behind its header, and the header has none. -/
theorem ReadsHeader.processes_of_clean {start opened read : ParseState}
    {statements : List HeaderStatement} {result : Option Unit}
    (reads : ReadsHeader options start statements opened)
    (run : attempt (file options) start = .ok result read) (clean : read.errors = start.errors) :
    ∃ entered, packageStatement options start = .ok () entered ∧
      Processes entered statements opened ∧ declarations options opened = .ok () read ∧
      opened.errors = entered.errors := by
  have isRead := stateAfter_of_attempt run
  have spells : Spells start (file options) _ := .file Grammar.integerType
  obtain ⟨entered, packaged, header, processes⟩ := reads
  have declared : file options start = declarations options opened := by
    simp only [file, Bind.bind, EStateM.bind, packaged, header]
  cases whole : file options start with
  | error fault after =>
      have more := spells.error whole
      rw [← isRead, stateAfter_error whole] at clean
      omega
  | ok value after =>
      obtain rfl : after = read := by rw [← isRead, stateAfter_ok whole]
      have early : Derives start (packageStatement options) _ := Spells.packageStatement
      have late : Spells opened (declarations options) _ := Spells.declarations Grammar.integerType
      have earlyGrown := (early.ok packaged).1
      have grown := processes.errors_le
      have lateGrown := (late.ok (declared.symm.trans whole)).1
      exact ⟨entered, packaged, processes, declared.symm.trans whole, by omega⟩

/-- A file without a fault is read to its end, and no import of it is processed twice. -/
theorem exists_header_of_clean {start read : ParseState} {result : Option Unit}
    (run : attempt (file options) start = .ok result read)
    (clean : read.errors = start.errors) (silent : read.diagnostics = start.diagnostics) :
    ∃ statements opened, ReadsHeader options start statements opened ∧
      declarations options opened = .ok () read ∧ (imports statements).Nodup := by
  rcases @file_cases options start with ⟨statements, opened, reads, -⟩ | loud
  · obtain ⟨entered, -, processes, declared, quiet⟩ := reads.processes_of_clean run clean
    exact ⟨statements, opened, reads, declared, (processes.nodup_of_clean quiet).1⟩
  · obtain ⟨found, grown, diagnostic, listed, -⟩ := loud
    rw [stateAfter_of_attempt run, silent] at grown
    rw [List.self_eq_append_right.mp grown] at listed
    cases listed

end Files

end Parse

namespace Program

open Parse HeaderStatement

variable {program : Program} {options : Options} {diagnostics : List Diagnostic} {path : Path}
  {source name : String} {statements : List HeaderStatement} {opened : ParseState}

/-- What the parser has read of a header is what is read ahead. -/
theorem ofSource_of_readsHeader (stem : path.stem? = some name)
    (reads : ReadsHeader options (ParseState.start program diagnostics path source) statements
      opened) :
    Header.ofSource path source =
      .ok ⟨path, opened.unit.package, name, statements.foldl collect []⟩ := by
  obtain ⟨package, read, entered, announced, enters, processes⟩ := reads.cases
  obtain ⟨⟨wordKind, wordText, wordPlace⟩, rest, ⟨semicolonKind, semicolonText, semicolonPlace⟩,
    tokens, isWord, named, isSemicolon⟩ := announced.statement
  subst isWord isSemicolon
  have filtered : (TokenStream.ofSource source).tokens.filter (fun token => !token.isComment) =
      ⟨.packageWord, wordText, wordPlace⟩ :: rest := tokens
  have listed := processes.collectImports_eq []
  rw [enters.tokens] at listed
  simp only [Header.ofSource, stem, filtered, named, listed, processes.reported.package,
    enters.package]

/-- The parser and the reading ahead agree on the header of every text that is accepted, whatever
program it is parsed into: the package and the name are those of the unit, and the imports are, in
order, those of the import statements that the parser processes. -/
theorem header_agrees_with_parseSource (program : Program) (options : Options)
    (diagnostics : List Diagnostic) (source : String) (stem : path.stem? = some name)
    (accepted : (program.parseSource options diagnostics path source).accepted = true) :
    ∃ statements opened read state,
      ReadsHeader options (ParseState.start program diagnostics path source) statements opened ∧
        declarations options opened = .ok () read ∧ finishUnit read = .ok true state ∧
        (program.parseSource options diagnostics path source).program = state.program ∧
        Header.ofSource path source =
          .ok ⟨path, state.unit.package, state.unit.name, imports statements⟩ := by
  obtain ⟨read, early, late, course⟩ := exists_course program options diagnostics path source
  obtain ⟨rfl, rfl⟩ := course.accepted.mp accepted
  have clean : read.errors = 0 := course.clean.mpr rfl
  obtain ⟨result, run⟩ := course.reads
  obtain ⟨state, finished⟩ := course.finishes
  rw [accepted] at finished
  have whole := parseSource_of_finished run finished
  have silent : read.diagnostics = diagnostics := by
    rw [course.grown]
    exact List.append_nil _
  obtain ⟨statements, opened, reads, declared, nodup⟩ :=
    exists_header_of_clean run clean silent
  refine ⟨statements, opened, read, state, reads, declared, finished, by rw [whole]; rfl, ?_⟩
  have finishes := Reports.finishUnit.ok finished
  have declares := Reports.declarations.ok declared
  have listed : statements.foldl collect [] = imports statements := foldl_collect_of_nodup nodup
  have named : state.unit.name = name := by
    rw [finishes.name, declares.name, reads.name, ParseState.start, stem, Option.getD_some]
  rw [ofSource_of_readsHeader stem reads, listed, named, finishes.package, declares.package]

/-- A file that announces a sequenceable, imports an interface and declares a struct. -/
def mixedHeaderSource : String :=
  "/* first */ package a . v1_0; sequenceable b.Shared; import a.v1_0.IFoo; // last\n" ++
    "struct S \x7b int x; \x7d;"

/-- The header of that file lists the interface and not the sequenceable. -/
theorem header_agrees_on_mixedHeader :
    (interfaceProgram.parseSource {} [] ⟨"a/v1_0/Types.idl"⟩ mixedHeaderSource).accepted = true ∧
      ∃ statements opened read state,
        ReadsHeader {} (ParseState.start interfaceProgram [] ⟨"a/v1_0/Types.idl"⟩ mixedHeaderSource)
          statements opened ∧
        declarations {} opened = .ok () read ∧ finishUnit read = .ok true state ∧
        Header.ofSource ⟨"a/v1_0/Types.idl"⟩ mixedHeaderSource =
          .ok ⟨⟨"a/v1_0/Types.idl"⟩, state.unit.package, state.unit.name, imports statements⟩ ∧
        state.unit.name = "Types" ∧ imports statements = ["a.v1_0.IFoo"] := by
  have accepted : (interfaceProgram.parseSource {} [] ⟨"a/v1_0/Types.idl"⟩
      mixedHeaderSource).accepted = true := by decide +kernel
  have isHeader : Header.ofSource ⟨"a/v1_0/Types.idl"⟩ mixedHeaderSource =
      .ok ⟨⟨"a/v1_0/Types.idl"⟩, "a.v1_0", "Types", ["a.v1_0.IFoo"]⟩ := by decide +kernel
  have stem : (⟨"a/v1_0/Types.idl"⟩ : Path).stem? = some "Types" := by decide +kernel
  obtain ⟨statements, opened, read, state, reads, declared, finished, -, agrees⟩ :=
    header_agrees_with_parseSource interfaceProgram {} [] mixedHeaderSource stem accepted
  refine ⟨accepted, statements, opened, read, state, reads, declared, finished, agrees, ?_⟩
  have same := agrees.symm.trans isHeader
  simp only [Except.ok.injEq, Header.mk.injEq] at same
  exact same.2.2

end Program

end DriverIdl
