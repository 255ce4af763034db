import DriverIdl.Proofs.Dump.DeclarationSequence
import DriverIdl.Proofs.Dump.Opening
import DriverIdl.Proofs.Program.Invariant

/-!
# A file that is read again

A file of types without faults is spelled by the words of its package, of what it imports and of the
types that it declares.  Whoever reads these words where the file was read has the same types again,
if no sequenceable that was new to the program hid a type that the file imports.
-/

namespace DriverIdl

open Parse ParseState

theorem ParseState.knownFirst_perm (effects : List HeaderEffect) :
    (knownFirst effects).Perm effects :=
  List.filter_append_perm _ effects

/-- A header settles what its unit sees and imports. -/
theorem Parse.BringsIn.unit_eq {before after : ParseState} {effects : List HeaderEffect}
    (brings : BringsIn before after effects) : after.unit = { before.unit with
      table := after.unit.table
      imports := after.unit.imports } := by
  rw [brings.alike.symm.unit, unit_foldl_behind]

namespace Program.ReadsAccepted

variable {options : Options} {start entered opened read : ParseState}
  {statements : List HeaderStatement} {outcome : ParseOutcome} {effects : List HeaderEffect}
  (reading : ReadsAccepted options start entered opened read statements outcome)

section Imports

variable (brings : BringsIn entered opened effects) (noImports : entered.unit.imports = [])
  (noSequenceables : entered.sequenceables = [])

include reading

theorem sequenceable_of_mem {entry : String × CompiledUnit} (listed : entry ∈ read.sequenceables) :
    entry.2.kind = .sequenceable ∧ entry.2.fullName = entry.1 := by
  obtain ⟨-, package, name, namespaceId, type, rfl, -⟩ :=
    reading.accepts.built.sequenceables entry listed
  exact ⟨rfl, rfl⟩

theorem published : Published (settled read) read.sequenceables read.withSequenceables :=
  published_foldl reading.accepts.built.imports fun _ listed => (reading.sequenceable_of_mem listed).2

include brings

theorem imports_eq : read.unit.imports = (effects.foldl behind entered).unit.imports := by
  rw [reading.keepsHeader.unit_eq, brings.alike.unit]

/-- Behind its package, a unit gets its types, its imports and what it declares. -/
theorem unit_eq : read.unit = { entered.unit with
    table := read.unit.table
    definitions := read.unit.definitions
    interface := read.unit.interface
    imports := read.unit.imports } := by
  rw [reading.keepsHeader.unit_eq, brings.unit_eq]

include noImports in
theorem names_imports :
    read.unit.imports.map Prod.fst = (effects.filter HeaderEffect.isKnown).map HeaderEffect.name := by
  have statements := importStatements_foldl_behind entered.program effects entered
  have names := congrArg (List.map Prod.snd) statements
  rw [reading.imports_eq brings]
  simpa [importStatements, noImports, Function.comp_def] using names

include noSequenceables in
theorem names_sequenceables : read.sequenceables.map Prod.fst =
    (effects.filter fun effect => !effect.isKnown).map HeaderEffect.name := by
  rw [reading.keepsHeader.sequenceables, ← brings.alike.sequenceables,
    names_sequenceables_foldl_behind, noSequenceables]
  rfl

theorem units_eq : read.program.units = entered.program.units := by
  rw [reading.keepsHeader.units, ← brings.alike.units, (Brings.foldl entered effects).units]

/-- An import that is new is of a sequenceable. -/
theorem importKeyword_of_new {entry : String × UnitId}
    (listed : entry ∈ read.withSequenceables.unit.imports)
    (isNew : entry.1 ∈ (effects.filter fun effect => !effect.isKnown).map HeaderEffect.name) :
    importKeyword outcome.program entry.2 = (.sequenceable, "sequenceable") := by
  have published := reading.published
  obtain ⟨unit, present, named⟩ := Program.find?_eq_some (published.imports entry listed)
  have stays : outcome.program.units[entry.2]? = some unit := by
    rw [reading.finished]
    exact Program.getElem?_of_units (units_withOwnUnit read.withSequenceables) present
  have kind : unit.kind = .sequenceable := by
    obtain ⟨added, units, isAdded⟩ := published.units
    have isUnit := Array.mem_of_getElem? present
    rw [units] at isUnit
    rcases Array.mem_append.mp isUnit with early | late
    · obtain ⟨effect, isEffect, isName⟩ := List.mem_map.mp isNew
      obtain ⟨isBrought, unknown⟩ := List.mem_filter.mp isEffect
      have fits := brings.fits effect isBrought
      cases fits with
      | see => cases unknown
      | add _ absent =>
          have known : unit ∈ entered.program.units := reading.units_eq brings ▸ early
          exact absurd (named.trans isName.symm) (Program.find?_eq_none.mp absent unit known)
    · obtain ⟨other, isSequenceable, rfl⟩ := isAdded unit late
      exact (reading.sequenceable_of_mem isSequenceable).1
  simp [importKeyword, stays, kind]

include noImports noSequenceables in
/-- A unit is printed to import what its header brought in, the known units first. -/
theorem importStatements_eq : importStatements outcome.program read.withSequenceables.unit =
    (knownFirst effects).map fun effect => (effect.keyword entered.program, effect.name) := by
  have once : ((knownFirst effects).map HeaderEffect.name).Nodup :=
    ((knownFirst_perm effects).map _).nodup_iff.mpr brings.nodup
  rw [knownFirst, List.map_append, ← reading.names_imports brings noImports,
    ← reading.names_sequenceables brings noSequenceables, List.nodup_append] at once
  obtain ⟨-, distinct, disjoint⟩ := once
  obtain ⟨added, imports, names⟩ := @imports_foldl_withPublished read.sequenceables (settled read)
    (fun entry listed known isKnown => disjoint known.1 (List.mem_map_of_mem isKnown) entry.1
      (List.mem_map_of_mem listed)) distinct
  change read.withSequenceables.unit.imports = read.unit.imports ++ added at imports
  rw [reading.names_sequenceables brings noSequenceables] at names
  obtain ⟨more, grown⟩ := reading.accepts.grown.units
  rw [reading.units_eq brings] at grown
  have known : read.unit.imports.map (fun entry => (importKeyword outcome.program entry.2, entry.1)) =
      (effects.filter HeaderEffect.isKnown).map
        fun effect => (effect.keyword entered.program, effect.name) := by
    have statements := importStatements_foldl_behind outcome.program effects entered
    rw [importStatements, ← reading.imports_eq brings] at statements
    rw [statements, importStatements, noImports, List.map_nil, List.nil_append]
    apply List.map_congr_left
    intro effect listed
    rw [(brings.fits effect (List.mem_filter.mp listed).1).keyword_eq grown]
  have new : added.map (fun entry => (importKeyword outcome.program entry.2, entry.1)) =
      (effects.filter fun effect => !effect.isKnown).map
        fun effect => (effect.keyword entered.program, effect.name) := by
    let announce (name : String) : Word × String := ((.sequenceable, "sequenceable"), name)
    calc added.map (fun entry => (importKeyword outcome.program entry.2, entry.1))
      _ = (added.map Prod.fst).map announce := by
        rw [List.map_map]
        apply List.map_congr_left
        intro entry listed
        have isImport : entry ∈ read.withSequenceables.unit.imports := by simp [imports, listed]
        rw [reading.importKeyword_of_new brings isImport (names ▸ List.mem_map_of_mem listed)]
        rfl
      _ = _ := by
        rw [names, List.map_map]
        apply List.map_congr_left
        intro effect listed
        have unknown := (List.mem_filter.mp listed).2
        cases effect with
        | see => cases unknown
        | add => rfl
  rw [importStatements, imports, List.map_append, known, new, knownFirst, List.map_append]

end Imports

end Program.ReadsAccepted

/-- No type that a unit imports from a program is hidden by one that the program does not hold. -/
def CompiledUnit.ShowsImports (program : Program) (unit : CompiledUnit) : Prop :=
  ∀ entry ∈ unit.imports, ∀ imported ∈ program.units[entry.2]?, ∀ type ∈ imported.declares,
    ∀ key ∈ namedKey? program.types type, ∀ seen ∈ unit.visibleType? key, seen < program.types.size

instance (program : Program) (unit : CompiledUnit) : Decidable (unit.ShowsImports program) :=
  inferInstanceAs (Decidable (∀ entry ∈ unit.imports, ∀ imported ∈ program.units[entry.2]?,
    ∀ type ∈ imported.declares, ∀ key ∈ namedKey? program.types type,
      ∀ seen ∈ unit.visibleType? key, seen < program.types.size))

/-- Every name that a text announces as a sequenceable is free in a program or belongs to a
sequenceable there. -/
def Program.KeepsSequenceablesApart (program : Program) (source : String) : Prop :=
  ∀ name, Announces .sequenceable name (sourceTokens source) →
    ∀ unit ∈ program.units, unit.fullName = name → unit.kind = .sequenceable

/-- The name that tokens announce at their front. -/
def announcedFirst? (keyword : TokenKind) (tokens : List Token) : Option String :=
  match tokens with
  | [] => none
  | word :: rest =>
    match Header.dottedName rest with
    | (name, semicolon :: _) =>
      if word.kind = keyword ∧ semicolon.kind = .semicolon then name else none
    | (_, []) => none

theorem announces_iff {keyword : TokenKind} {name : String} {tokens : List Token} :
    Announces keyword name tokens ↔ name ∈ tokens.tails.filterMap (announcedFirst? keyword) := by
  simp only [List.mem_filterMap, List.mem_tails]
  constructor
  · rintro ⟨word, rest, semicolon, others, suffix, isWord, reads, isSemicolon⟩
    exact ⟨_, suffix, by simp [announcedFirst?, reads, isWord, isSemicolon]⟩
  · rintro ⟨suffix, within, found⟩
    cases suffix with
    | nil => cases found
    | cons word rest =>
        rw [announcedFirst?] at found
        split at found
        · rename_i semicolon others reads
          split at found
          · rename_i statement
            exact ⟨word, rest, semicolon, others, within, statement.1, found ▸ reads, statement.2⟩
          · cases found
        · cases found

instance (program : Program) (source : String) : Decidable (program.KeepsSequenceablesApart source) :=
  decidable_of_iff (∀ name ∈ (sourceTokens source).tails.filterMap (announcedFirst? .sequenceable),
      ∀ unit ∈ program.units, unit.fullName = name → unit.kind = .sequenceable)
    (forall_congr' fun _ => imp_congr announces_iff.symm Iff.rfl)

theorem Parse.Processes.announces {before after : ParseState} {statements : List HeaderStatement}
    (run : Processes before statements after) {statement : HeaderStatement}
    (listed : statement ∈ statements) :
    Announces statement.keyword statement.name before.tokens := by
  induction run with
  | done => cases listed
  | next first _ ih =>
      obtain ⟨read, announced, tokens, -⟩ := first.takes
      rcases List.mem_cons.mp listed with rfl | later
      · exact announced.announces
      · exact (tokens ▸ ih later).of_suffix announced.suffix

theorem DefinitionsWords.apart {arena : TypeArena} {ids : List TypeId} {words : List Word}
    (spelled : DefinitionsWords arena ids words) : Apart [.importWord, .sequenceable] words := by
  cases spelled with
  | nil => exact .nil
  | cons _ first _ =>
      obtain ⟨word, others, rfl, starts⟩ := first.head
      refine .cons fun stops => ?_
      simp only [definitionStarts, List.mem_cons, List.not_mem_nil, or_false] at starts stops
      rcases stops with same | same <;> simp [same] at starts

theorem Parse.BringsIn.replays {before after : ParseState} {effects : List HeaderEffect}
    {words : List Word} (brings : BringsIn before after effects) (knows : before.KnowsSequenceables)
    (inside : ∀ name id, .see name id ∈ effects →
      ∀ type ∈ (unitAt before id).declares, type < before.types.size)
    (unhidden : ∀ name id, .see name id ∈ effects →
      Unhidden before.types.size before (effects.foldl ParseState.behind before) id)
    (spelled : StatementsWords ((knownFirst effects).map
      fun effect => (effect.keyword before.program, effect.name)) words) :
    Replays before after words (Apart [.importWord, .sequenceable]) headerStatements
      fun _ => True := by
  have sorted : Alike after ((knownFirst effects).foldl ParseState.behind before) :=
    brings.alike.trans (alike_knownFirst (Nat.le_refl _) inside unhidden)
  have perm := knownFirst_perm effects
  have rounds := Replays.headerRounds rfl knows
    (fun effect listed => brings.fits effect (perm.subset listed))
    ((perm.map _).nodup_iff.mpr brings.nodup)
    (fun effect listed => brings.fresh effect (perm.subset listed)) spelled
  exact (Replays.loop rounds).ends sorted

/-- The types of a unit that is imported are there before. -/
theorem ParseState.declares_lt {program : Program} {before : ParseState} {name : String}
    {id : UnitId} (fits : (HeaderEffect.see name id).Fits before.program)
    (reachable : program.Reachable) (units : before.program.units = program.units)
    (types : before.types = program.types) :
    ∀ type ∈ (unitAt before id).declares, type < before.types.size := by
  intro type declared
  cases fits with
  | see found =>
      obtain ⟨imported, present, -⟩ := Program.find?_eq_some found
      rw [unitAt, present, Option.getD_some] at declared
      have isUnit : imported ∈ program.units := units ▸ Array.mem_of_getElem? present
      rw [types]
      apply (reachable.wellFormed.units imported isUnit).shape.lt_size
      simpa [CompiledUnit.declares] using declared

namespace Program.ReadsAccepted

variable {options : Options} {entered opened read : ParseState} {program : Program}
  {diagnostics : List Diagnostic} {path : Path} {source : String}
  {statements : List HeaderStatement} {outcome : ParseOutcome} {effects : List HeaderEffect}
  (reading : ReadsAccepted options (ParseState.start program diagnostics path source) entered opened
    read statements outcome)

include reading

/-- The names of what a file is printed to import are spelled as the file spelled them. -/
theorem exists_importWords (brings : BringsIn entered opened effects)
    (noImports : entered.unit.imports = []) (noSequenceables : entered.sequenceables = []) :
    ∃ words,
      StatementsWords (importStatements outcome.program read.withSequenceables.unit) words ∧
      StatementsWords ((knownFirst effects).map
        fun effect => (effect.keyword entered.program, effect.name)) words := by
  have printed := reading.importStatements_eq brings noImports noSequenceables
  obtain ⟨words, spelled⟩ : ∃ words, StatementsWords ((knownFirst effects).map
      fun effect => (effect.keyword entered.program, effect.name)) words := by
    apply StatementsWords.exists_words
    intro statement listed
    obtain ⟨effect, isEffect, rfl⟩ := List.mem_map.mp listed
    exact brings.named effect ((knownFirst_perm effects).subset isEffect)
  exact ⟨words, printed ▸ spelled, spelled⟩

/-- What a file of types imports is brought in ahead of its new sequenceables as well. -/
theorem unhidden (brings : BringsIn entered opened effects) (coherent : opened.Coherent)
    (types : entered.types = program.types) (units : entered.program.units = program.units)
    (shows : read.unit.ShowsImports program) {name : String} {id : UnitId}
    (listed : .see name id ∈ effects) :
    Unhidden entered.types.size entered (effects.foldl behind entered) id := by
  intro key type shown seen visible
  obtain ⟨declared, isKey⟩ := mem_namedEntries.mp (mem_of_lookup_eq_some shown)
  rw [brings.alike.visible] at visible
  have stays : read.unit.visibleType? key = some seen :=
    ((Leads.of_run reading.declares Runs.declarations).recalls coherent).1.visibleType? visible
  have isImport : (name, id) ∈ read.unit.imports := by
    rw [reading.imports_eq brings]
    exact mem_imports_foldl_behind listed entered
  have fits := brings.fits _ listed
  cases fits with
  | see found =>
      obtain ⟨imported, present, -⟩ := Program.find?_eq_some found
      rw [unitAt, present, Option.getD_some] at declared
      rw [types] at isKey ⊢
      exact shows _ isImport imported (units ▸ present) type declared key isKey seen stays

/-- An accepted file of types is spelled by the words of its unit: they are read as the file was. -/
theorem retells (reachable : program.Reachable) (types : read.unit.interface = none)
    (apart : ShortNamesApart read.unit.table)
    (unshared : program.KeepsSequenceablesApart source) (shows : read.unit.ShowsImports program) :
    ∃ package imports words,
      read.unit.license = leadingLicense? (TokenStream.ofSource source).tokens ∧
      NameWords read.unit.package package ∧
      StatementsWords (importStatements outcome.program read.withSequenceables.unit) imports ∧
      DefinitionsWords read.types read.unit.definitions words ∧
      Replays (ParseState.start program diagnostics path source) read
        (statementWords (.packageWord, "package") package ++ (imports ++ words)) (· = [])
          (file options) fun _ => True := by
  have named := named_start program diagnostics path source
  have orderly := reading.orderly types (coherent_start reachable diagnostics path source) rfl named
  obtain ⟨packageName, version, headed, package, same, taken, placed, spelled, rfl⟩ :=
    reading.entersPackage rfl named
  have units : headed.program.units = program.units := by rw [same]; rfl
  have arena : headed.types = program.types := same.types_eq
  have noImports : headed.unit.imports = [] := by rw [same]; rfl
  have noSequenceables : headed.sequenceables = [] := by rw [same]; rfl
  have noDefinitions : headed.unit.definitions = [] := by rw [same]; rfl
  have knows := ((knowsSequenceables_start reachable diagnostics path source).alike
    (.of_sameButTokens same)).withPackage packageName version
  obtain ⟨effects, brings⟩ := reading.processes.bringsIn reading.quiet knows
    (fun token listed => named token (taken.subset listed))
    (fun entry listed => absurd (noSequenceables ▸ listed) List.not_mem_nil)
    (fun name announced unit listed => unshared name
      ((reading.processes.announces announced).of_suffix taken) unit (units ▸ listed))
  have inside : ∀ name id, .see name id ∈ effects →
      ∀ type ∈ (unitAt (withPackage headed packageName version) id).declares,
        type < headed.types.size :=
    fun _ _ listed => declares_lt (brings.fits _ listed) reachable units arena
  obtain ⟨imports, imported, told⟩ :=
    reading.exists_importWords brings noImports noSequenceables
  obtain ⟨ids, words, definitions, -, defined, declared⟩ :=
    retells_declarations reading.declares orderly ⟨reading.clean, apart⟩
  have whole : read.unit.definitions = ids := by
    rw [definitions, brings.unit_eq]
    exact congrArg (· ++ ids) noDefinitions
  have header := brings.replays knows inside
    (fun name id listed => reading.unhidden brings orderly.coherent arena units shows listed)
    told
  refine ⟨package, imports, words, ?_, ?_, imported, ?_, ?_⟩
  · have license : headed.unit.license = leadingLicense? (TokenStream.ofSource source).tokens := by
      rw [same]
      rfl
    rw [reading.unit_eq brings]
    exact license
  · rw [reading.unit_eq brings]
    exact spelled
  · rw [whole]
    exact defined
  · apply (Replays.packageStatement same placed spelled).seq
    intro _ _
    apply header.bind (fun _ _ => declared)
    rintro rest rfl
    rw [List.append_nil]
    exact defined.apart

end Program.ReadsAccepted

end DriverIdl
