import DriverIdl.Proofs.Dump.HeaderEffects
import DriverIdl.Proofs.Dump.UnitText
import DriverIdl.Proofs.Parsing.HeaderReading

/-!
# A header that is read again

A header without faults brings in known units and new sequenceables, each under a name of its own.
Printed, the known units stand first; whoever reads these statements again has the same state, if no
new sequenceable hid a type of a known unit.
-/

namespace DriverIdl

open Parse

/-- The name under which something is brought in. -/
def HeaderEffect.name : HeaderEffect → String
  | .see name _ => name
  | .add full _ _ => full

/-- What stands in front of the name. -/
def HeaderEffect.keyword (program : Program) : HeaderEffect → Word
  | .see _ id => importKeyword program id
  | .add _ _ _ => (.sequenceable, "sequenceable")

/-- A name denotes a unit, or the parts of a sequenceable that no unit has the name of. -/
inductive HeaderEffect.Fits (program : Program) : HeaderEffect → Prop where
  | see {name : String} {id : UnitId} (found : program.find? name = some id) :
      Fits program (.see name id)
  | add {full package name : String} (split : Package.splitFullName? full = some (package, name))
      (absent : program.find? full = none) : Fits program (.add full package name)

theorem Program.find?_congr {program other : Program} (units : other.units = program.units)
    (name : String) : other.find? name = program.find? name := by
  rw [find?, units, find?]

namespace HeaderEffect

variable {program other : Program} {effect : HeaderEffect}

theorem Fits.congr (fits : effect.Fits program) (units : other.units = program.units) :
    effect.Fits other := by
  cases fits with
  | see found => exact .see ((Program.find?_congr units _).trans found)
  | add split absent => exact .add split ((Program.find?_congr units _).trans absent)

/-- What is brought in is printed alike when units have been added. -/
theorem Fits.keyword_eq {added : Array CompiledUnit} (fits : effect.Fits program)
    (grown : other.units = program.units ++ added) :
    effect.keyword other = effect.keyword program := by
  cases fits with
  | add => rfl
  | see found =>
      obtain ⟨unit, present, -⟩ := Program.find?_eq_some found
      simp only [keyword, importKeyword, present, Program.getElem?_of_units grown present]

theorem keyword_congr (units : other.units = program.units) :
    effect.keyword other = effect.keyword program := by
  cases effect <;> simp only [keyword, importKeyword, units]

end HeaderEffect

namespace ParseState

variable {state before after first second : ParseState} {effect : HeaderEffect}

/-- The names that a statement may not repeat. -/
def takenNames (state : ParseState) : List String :=
  state.unit.imports.map Prod.fst ++ state.sequenceables.map Prod.fst

theorem mem_takenNames_behind (effect : HeaderEffect) (name : String) :
    name ∈ (state.behind effect).takenNames ↔ name ∈ state.takenNames ∨ name = effect.name := by
  cases effect with
  | see other id => simp [behind, takenNames, withImport, HeaderEffect.name]; tauto
  | add full package short =>
      simp [behind, takenNames, withSequenceable, setAside, HeaderEffect.name]; tauto

/-- Every sequenceable that is set aside is new. -/
theorem absent_behind {program : Program} (fits : effect.Fits program)
    (absent : ∀ entry ∈ state.sequenceables, program.find? entry.1 = none) :
    ∀ entry ∈ (state.behind effect).sequenceables, program.find? entry.1 = none := by
  cases fits with
  | see _ => exact absent
  | add _ isAbsent =>
      intro entry listed
      simp only [behind, withSequenceable, setAside, List.mem_append, List.mem_singleton] at listed
      rcases listed with earlier | rfl
      · exact absent entry earlier
      · exact isAbsent

theorem Alike.takenNames (alike : Alike first second) : second.takenNames = first.takenNames := by
  rw [ParseState.takenNames, ParseState.takenNames, alike.unit, alike.sequenceables]

/-- What a header brings in changes nothing else of the unit. -/
theorem unit_foldl_behind (effects : List HeaderEffect) (state : ParseState) :
    (effects.foldl behind state).unit = { state.unit with
      table := (effects.foldl behind state).unit.table
      imports := (effects.foldl behind state).unit.imports } := by
  induction effects generalizing state with
  | nil => rfl
  | cons effect rest ih =>
      rw [List.foldl_cons, ih]
      cases effect <;> rfl

theorem importStatements_foldl_behind (program : Program) (effects : List HeaderEffect)
    (state : ParseState) : importStatements program (effects.foldl behind state).unit =
      importStatements program state.unit ++ (effects.filter HeaderEffect.isKnown).map
        fun effect => (effect.keyword program, effect.name) := by
  induction effects generalizing state with
  | nil => simp
  | cons effect rest ih =>
      rw [List.foldl_cons, ih]
      cases effect with
      | see name id =>
          simp [importStatements, behind, withImport, HeaderEffect.keyword, HeaderEffect.name,
            List.filter_cons]
      | add full package short =>
          simp [importStatements, behind, withSequenceable, setAside, CompiledUnit.register]

theorem mem_imports_foldl_behind {effects : List HeaderEffect} {name : String} {id : UnitId}
    (listed : .see name id ∈ effects) (state : ParseState) :
    (name, id) ∈ (effects.foldl behind state).unit.imports := by
  have kept (later : List HeaderEffect) (state : ParseState) :
      state.unit.imports ⊆ (later.foldl behind state).unit.imports := by
    induction later generalizing state with
    | nil => exact List.Subset.refl _
    | cons effect rest ih =>
        refine List.Subset.trans ?_ (ih _)
        cases effect with
        | see => exact List.subset_append_left _ _
        | add => exact List.Subset.refl _
  induction effects generalizing state with
  | nil => cases listed
  | cons effect rest ih =>
      rcases List.mem_cons.mp listed with rfl | later
      · exact kept rest _ (by simp [behind, withImport])
      · exact ih later _

theorem names_sequenceables_foldl_behind (effects : List HeaderEffect) (state : ParseState) :
    (effects.foldl behind state).sequenceables.map Prod.fst =
      state.sequenceables.map Prod.fst ++
        (effects.filter fun effect => !effect.isKnown).map HeaderEffect.name := by
  induction effects generalizing state with
  | nil => simp
  | cons effect rest ih =>
      rw [List.foldl_cons, ih]
      cases effect with
      | see name id => simp [behind, withImport]
      | add full package short => simp [behind, withSequenceable, setAside, HeaderEffect.name]

/-- The sequenceables of the program are held by their units. -/
structure KnowsSequenceables (state : ParseState) : Prop where
  trie : state.program.namespaces.Trie
  holds : ∀ unit ∈ state.program.units, unit.kind = .sequenceable →
    ∃ type, unit.HoldsSequenceable state.types state.program.namespaces type

namespace KnowsSequenceables

theorem alike (knows : first.KnowsSequenceables) (alike : Alike first second) :
    second.KnowsSequenceables where
  trie := alike.namespaces ▸ knows.trie
  holds unit listed isSequenceable := by
    rw [alike.units] at listed
    obtain ⟨type, holds⟩ := knows.holds unit listed isSequenceable
    rw [alike.namespaces]
    exact ⟨type, { holds with named := (alike.namedKey? type).trans holds.named }⟩

theorem behind (knows : state.KnowsSequenceables) (effect : HeaderEffect) :
    (state.behind effect).KnowsSequenceables := by
  have brings := Brings.behind state effect
  have namespaces : (state.behind effect).program.namespaces.Trie ∧
      state.program.namespaces.Keeps (state.behind effect).program.namespaces := by
    cases effect with
    | see name id => exact ⟨knows.trie, .refl _⟩
    | add full package name =>
        have interns := NamespaceTree.interns_intern knows.trie package
        exact ⟨interns.trie, interns.keeps⟩
  refine ⟨namespaces.1, fun unit listed isSequenceable => ?_⟩
  rw [brings.units] at listed
  obtain ⟨type, holds⟩ := knows.holds unit listed isSequenceable
  refine ⟨type, { holds with named := ?_, leads := ?_ }⟩
  · rw [brings.named type (lt_size_of_namedKey? holds.named)]
    exact holds.named
  · exact holds.leads.of_keeps knows.trie.toWellFormed namespaces.2

end KnowsSequenceables

end ParseState

namespace Parse

open ParseState

variable {state before after : ParseState} {effect : HeaderEffect} {words : List Word}
  {behind : List Word → Prop} {place : Position}

/-- What a name denotes is brought in by the statement that announces it. -/
theorem announced_cases (knows : state.KnowsSequenceables) (fits : effect.Fits state.program)
    (fresh : effect.name ∉ state.takenNames) :
    (effect.keyword state.program = (.importWord, "import") ∧
        ∀ place, importUnit effect.name place state = .ok () (state.behind effect)) ∨
      (effect.keyword state.program = (.sequenceable, "sequenceable") ∧
        ∀ place, declareSequenceable effect.name place state = .ok () (state.behind effect)) := by
  simp only [takenNames, List.mem_append, List.mem_map, not_or, not_exists, not_and] at fresh
  obtain ⟨new, notSetAside⟩ := fresh
  cases fits with
  | add split absent => exact .inr ⟨rfl, fun _ => declareSequenceable_new split new notSetAside absent⟩
  | @see name id found =>
      obtain ⟨unit, isUnit, named⟩ := Program.find?_eq_some found
      by_cases kind : unit.kind = .sequenceable
      · obtain ⟨type, holds⟩ := knows.holds unit (Array.mem_of_getElem? isUnit) kind
        refine .inr ⟨?_, fun _ =>
          declareSequenceable_known knows.trie found isUnit named holds new notSetAside⟩
        simp [HeaderEffect.keyword, importKeyword, isUnit, kind]
      · refine .inl ⟨?_, fun _ => importUnit_new new found⟩
        simp [HeaderEffect.keyword, importKeyword, isUnit, kind]

namespace Replays

theorem dottedName {expected name : String} (spelled : NameWords name words) :
    Replays before before words (Apart [.dot]) (Parse.dottedName expected)
      fun result => result.1 = name := by
  obtain ⟨first, others, rfl, reads⟩ := spelled.reads
  have whole : (TokenKind.identifier, first) :: others = [(.identifier, first)] ++ others := rfl
  rw [whole]
  have isIdentifier : (TokenKind.identifier, first).1 = .identifier := rfl
  apply (expect isIdentifier).seq
  intro token isFirst second rest alike tokens apart
  obtain ⟨left, leftWords, same⟩ := reads _ rest tokens
  have text : token.text = first := congrArg Prod.snd isFirst
  have read := Header.dottedTail_of_apart name (leftWords.symm ▸ apart)
  rw [← same, ← text] at read
  obtain ⟨rounds, run⟩ := dottedTail_run second read
  refine ⟨(name, token.place), _, bind_eq_ok.mpr ⟨name, _, run, rfl⟩, rfl, leftWords, ?_⟩
  exact alike.of_second

theorem announcement {keyword : Word} {word expected name : String}
    (spelled : NameWords name words) :
    Replays before before (statementWords keyword words) behind
      (Parse.announcement keyword.1 word expected) fun result => result.1 = name := by
  have whole : statementWords keyword words = [keyword] ++ (words ++ [(.semicolon, ";")]) := rfl
  rw [whole]
  apply (expect rfl).seq
  intro _ _
  apply (dottedName spelled).seqStop fun rest => .cons (by decide)
  intro named isName
  apply (expect rfl).seqSilent
  intro _ _
  exact .pure isName

/-- A statement is read again, and what it announces is brought in. -/
theorem statementRound {keyword : Word} {word expected name : String}
    {perform : String → Position → Parse Unit} (spelled : NameWords name words)
    (performs : ∀ second place, Alike state second →
      perform name place second = .ok () (second.behind effect)) :
    Replays state (state.behind effect) (statementWords keyword words) behind
      (Parse.statementRound (do
        let (name, place) ← Parse.announcement keyword.1 word expected
        perform name place)) fun result => result = .inl () := by
  have statement : Replays state (state.behind effect) (statementWords keyword words) behind (do
      let (name, place) ← Parse.announcement keyword.1 word expected
      perform name place) fun _ => True := by
    apply (announcement spelled).seqSilent
    rintro ⟨read, place⟩ rfl second rest alike tokens _
    have run := performs second place alike
    refine ⟨(), _, run, trivial, ?_, alike.behind effect⟩
    cases effect <;> exact tokens
  apply statement.attempt.seqSilent
  rintro _ ⟨_, rfl, -⟩
  exact .pure rfl

theorem importRound (spelled : NameWords effect.name words)
    (performs : ∀ second place, Alike state second →
      importUnit effect.name place second = .ok () (second.behind effect)) :
    Replays state (state.behind effect) (statementWords (.importWord, "import") words) behind
      (Parse.statementRound importStatement) fun result => result = .inl () :=
  statementRound spelled performs

theorem sequenceableRound (spelled : NameWords effect.name words)
    (performs : ∀ second place, Alike state second →
      declareSequenceable effect.name place second = .ok () (second.behind effect)) :
    Replays state (state.behind effect) (statementWords (.sequenceable, "sequenceable") words) behind
      (Parse.statementRound sequenceableStatement) fun result => result = .inl () :=
  statementRound spelled performs

theorem headerRound (knows : state.KnowsSequenceables) (fits : effect.Fits state.program)
    (fresh : effect.name ∉ state.takenNames) (spelled : NameWords effect.name words) :
    Replays state (state.behind effect) (statementWords (effect.keyword state.program) words) behind
      (Parse.headerRound ()) fun result => result = .inl () := by
  have either : ∀ second, Alike state second →
      (effect.keyword state.program = (.importWord, "import") ∧
        ∀ place, importUnit effect.name place second = .ok () (second.behind effect)) ∨
      (effect.keyword state.program = (.sequenceable, "sequenceable") ∧
        ∀ place, declareSequenceable effect.name place second = .ok () (second.behind effect)) := by
    intro second alike
    have same : effect.keyword second.program = effect.keyword state.program :=
      HeaderEffect.keyword_congr alike.units
    rw [← same]
    exact announced_cases (knows.alike alike) (fits.congr alike.units) (alike.takenNames ▸ fresh)
  intro second rest alike tokens follows
  obtain ⟨token, tail, isAhead, isWord, -⟩ := List.map_eq_cons_iff.mp tokens
  have kind : (ahead second).kind = (effect.keyword state.program).1 := by
    rw [ahead_cons isAhead, ← isWord, Token.word]
  rw [headerRound_eq, kind]
  rcases either second alike with ⟨isKeyword, -⟩ | ⟨isKeyword, -⟩
  · rw [isKeyword] at tokens either ⊢
    refine importRound spelled (fun second place alike => ?_) second rest alike tokens follows
    rcases either second alike with ⟨-, run⟩ | ⟨other, -⟩
    · exact run place
    · cases other
  · rw [isKeyword] at tokens either ⊢
    refine sequenceableRound spelled (fun second place alike => ?_) second rest alike tokens follows
    rcases either second alike with ⟨other, -⟩ | ⟨-, run⟩
    · cases other
    · exact run place

/-- Statements that bring in what fits, each name once, are read again. -/
theorem headerRounds {effects : List HeaderEffect} {program : Program}
    (units : state.program.units = program.units) (knows : state.KnowsSequenceables)
    (fits : ∀ effect ∈ effects, effect.Fits program) (nodup : (effects.map HeaderEffect.name).Nodup)
    (fresh : ∀ effect ∈ effects, effect.name ∉ state.takenNames)
    (spelled : StatementsWords
      (effects.map fun effect => (effect.keyword program, effect.name)) words) :
    Rounds state (effects.foldl ParseState.behind state) words (Apart [.importWord, .sequenceable])
      Parse.headerRound () fun _ => True := by
  induction effects generalizing state words with
  | nil =>
      cases spelled
      apply Rounds.done
      intro second rest alike tokens apart
      have noImport : (ahead second).kind ≠ .importWord :=
        ahead_ne (by decide) tokens (apart.mono (by simp))
      have noSequenceable : (ahead second).kind ≠ .sequenceable :=
        ahead_ne (by decide) tokens (apart.mono (by simp))
      refine ⟨.inr (), second, ?_, ⟨(), rfl, trivial⟩, tokens, alike⟩
      rw [headerRound_eq]
      split
      · rename_i isImport
        exact absurd isImport noImport
      · rename_i isSequenceable
        exact absurd isSequenceable noSequenceable
      · rfl
  | cons effect effects ih =>
      cases spelled with
      | @cons _ _ _ words others named later =>
          obtain ⟨first, fitsLater⟩ := List.forall_mem_cons.mp fits
          obtain ⟨isFresh, freshLater⟩ := List.forall_mem_cons.mp fresh
          obtain ⟨once, nodupLater⟩ := List.nodup_cons.mp nodup
          have round : Replays state (state.behind effect)
              (statementWords (effect.keyword program) words) ⊤ (Parse.headerRound ())
                fun result => ∃ next, result = .inl next ∧ True := by
            rw [← HeaderEffect.keyword_congr units]
            exact (headerRound knows (first.congr units) isFresh named).imp
              fun _ isNext => ⟨(), isNext, trivial⟩
          refine .more (by simp [statementWords]) round fun _ _ => ?_
          refine ih ((Brings.behind state effect).units.trans units) (knows.behind effect) fitsLater
            nodupLater (fun other listed => ?_) later
          rw [mem_takenNames_behind]
          rintro (taken | same)
          · exact freshLater other listed taken
          · exact once (same ▸ List.mem_map_of_mem listed)

end Replays

/-- What a header without faults brings in: each name once, all of it denoting something. -/
structure BringsIn (before after : ParseState) (effects : List HeaderEffect) : Prop where
  alike : Alike after (effects.foldl ParseState.behind before)
  fits : ∀ effect ∈ effects, effect.Fits before.program
  nodup : (effects.map HeaderEffect.name).Nodup
  fresh : ∀ effect ∈ effects, effect.name ∉ before.takenNames
  named : ∀ effect ∈ effects, ∃ words, NameWords effect.name words

section Bringing

variable {statement : HeaderStatement} {statements : List HeaderStatement}

theorem not_mem_takenNames {state read : ParseState} {name : String} (same : SameButTokens state read)
    (new : ∀ entry ∈ read.unit.imports, entry.1 ≠ name)
    (notSetAside : ∀ entry ∈ read.sequenceables, entry.1 ≠ name) : name ∉ state.takenNames := by
  rw [SameButTokens] at same
  rw [same] at new notSetAside
  simpa [takenNames] using ⟨fun id listed => new (name, id) listed rfl,
    fun unit listed => notSetAside (name, unit) listed rfl⟩

/-- A statement without a fault brings in what its name denotes. -/
theorem Processed.bringsIn (processed : Processed before statement after)
    (clean : after.errors = before.errors) (knows : before.KnowsSequenceables)
    (absent : ∀ entry ∈ before.sequenceables, before.program.find? entry.1 = none)
    (apart : ∀ name, statement = .sequenceable name →
      ∀ unit ∈ before.program.units, unit.fullName = name → unit.kind = .sequenceable) :
    ∃ read effect, SameButTokens before read ∧ after = read.behind effect ∧
      effect.name = statement.name ∧ effect.Fits before.program ∧
      effect.name ∉ before.takenNames := by
  have unreported : ∀ {read : ParseState} {place : Position} {fault : SourceFault},
      SameButTokens before read → report place fault read ≠ .ok () after := by
    rintro read place fault same ⟨⟩
    have counted : read.errors + 1 = before.errors := clean
    rw [same.errors_eq] at counted
    omega
  cases processed with
  | importing announced performed =>
      rename_i read name place
      have same := (announcement_ok (by decide) announced).same
      have program : read.program = before.program := by rw [same]
      have sequenceables : read.sequenceables = before.sequenceables := by rw [same]
      rcases importUnit_cases name place read with ⟨fault, -, run⟩ | ⟨id, state, run, imports⟩
      · exact absurd (run.symm.trans performed) (unreported same)
      · have isRun := performed.symm.trans (importUnit_new imports.new imports.found)
        refine ⟨read, .see name id, same, by cases isRun; rfl, rfl, .see (program ▸ imports.found),
          not_mem_takenNames same imports.new ?_⟩
        rintro entry listed rfl
        have nothing := absent entry (sequenceables ▸ listed)
        rw [← program, imports.found] at nothing
        cases nothing
  | sequenceable announced performed =>
      rename_i read name place
      have same := (announcement_ok (by decide) announced).same
      have program : read.program = before.program := by rw [same]
      rcases declareSequenceable_cases name place read with
        ⟨fault, -, run⟩ | ⟨package, short, state, run, outcome⟩
      · exact absurd (run.symm.trans performed) (unreported same)
      · obtain ⟨type, sees⟩ := exists_sees outcome
        have fresh := not_mem_takenNames same sees.notImported sees.notSetAside
        cases found : read.program.find? name with
        | none =>
            have isRun := performed.symm.trans
              (declareSequenceable_new sees.split sees.notImported sees.notSetAside found)
            exact ⟨read, .add name package short, same, by cases isRun; rfl, rfl,
              .add sees.split (program ▸ found), fresh⟩
        | some id =>
            obtain ⟨unit, isUnit, named⟩ := Program.find?_eq_some found
            have listed := Array.mem_of_getElem? isUnit
            have knowsToo := knows.alike (.of_sameButTokens same)
            obtain ⟨offered, holds⟩ := knowsToo.holds unit listed
              (apart name rfl unit (program ▸ listed) named)
            have isRun := performed.symm.trans (declareSequenceable_known knowsToo.trie found
              isUnit named holds sees.notImported sees.notSetAside)
            exact ⟨read, .see name id, same, by cases isRun; rfl, rfl, .see (program ▸ found), fresh⟩

theorem Processed.exists_nameWords (processed : Processed before statement after)
    (named : ∀ token ∈ before.tokens, token.Named) :
    (∃ words, NameWords statement.name words) ∧ after.tokens <:+ before.tokens := by
  obtain ⟨read, announced, tokens, -⟩ := processed.takes
  refine ⟨?_, tokens ▸ announced.suffix⟩
  obtain ⟨word, rest, semicolon, isAhead, -, reads, -⟩ := announced.statement
  exact Header.nameWords_of_dottedName reads fun token listed =>
    named token (isAhead ▸ List.mem_cons_of_mem _ listed)

theorem Processes.bringsIn (run : Processes before statements after)
    (clean : after.errors = before.errors) (knows : before.KnowsSequenceables)
    (named : ∀ token ∈ before.tokens, token.Named)
    (absent : ∀ entry ∈ before.sequenceables, before.program.find? entry.1 = none)
    (apart : ∀ name, .sequenceable name ∈ statements →
      ∀ unit ∈ before.program.units, unit.fullName = name → unit.kind = .sequenceable) :
    ∃ effects, BringsIn before after effects := by
  induction run with
  | @done state =>
      exact ⟨[], (Alike.of_sameButTokens (SameButTokens.counted state)).symm, by simp, by simp,
        by simp, by simp⟩
  | @next before middle after statement others first rest ih =>
      have firstErrors := first.errors_le
      have restErrors := rest.errors_le
      have middleErrors : middle.errors = before.counted.errors :=
        Nat.le_antisymm (clean ▸ restErrors) firstErrors
      obtain ⟨spelled, suffix⟩ := first.exists_nameWords named
      obtain ⟨read, effect, same, rfl, isNamed, fits, fresh⟩ := first.bringsIn middleErrors
        (knows.alike (.of_sameButTokens (.counted before))) absent fun name isName =>
          apart name (isName ▸ List.mem_cons_self)
      have alike : Alike before read :=
        (Alike.of_sameButTokens (.counted before)).trans (.of_sameButTokens same)
      have units : (read.behind effect).program.units = before.program.units :=
        (Brings.behind read effect).units.trans alike.units
      have sequenceables : read.sequenceables = before.sequenceables := alike.sequenceables
      obtain ⟨effects, brings⟩ := ih (clean.trans middleErrors.symm)
        ((knows.alike alike).behind effect) (fun token listed => named token (suffix.subset listed))
        (by
          intro entry listed
          rw [Program.find?_congr units]
          exact absent_behind fits (sequenceables ▸ absent) entry listed)
        (fun name listed => by
          rw [units]
          exact apart name (List.mem_cons_of_mem _ listed))
      have apartLater : ∀ other ∈ effects,
          other.name ∉ before.takenNames ∧ other.name ≠ effect.name := by
        intro other listed
        have isFresh := brings.fresh other listed
        rwa [mem_takenNames_behind, alike.takenNames, not_or] at isFresh
      refine ⟨effect :: effects, ?_, ?_, ?_, ?_, ?_⟩
      · exact brings.alike.trans (.foldl (alike.symm.behind effect) effects)
      · exact List.forall_mem_cons.mpr
          ⟨fits, fun other listed => (brings.fits other listed).congr units.symm⟩
      · refine List.nodup_cons.mpr ⟨fun listed => ?_, brings.nodup⟩
        obtain ⟨other, isListed, same⟩ := List.mem_map.mp listed
        exact (apartLater other isListed).2 same
      · exact List.forall_mem_cons.mpr ⟨fresh, fun other listed => (apartLater other listed).1⟩
      · exact List.forall_mem_cons.mpr ⟨isNamed ▸ spelled, brings.named⟩

end Bringing

end Parse

end DriverIdl
