import DriverIdl.Proofs.Dump.Reading
import DriverIdl.Proofs.Parsing.HeaderNames
import DriverIdl.Proofs.Paths

/-!
# The dump of a unit of types

Parsed where the unit was parsed, the dump of a unit of types gives the unit again, and the same types
but for the places where they stand in their file.
-/

namespace DriverIdl

open Parse ParseState

theorem Path.mem_text_of_mem_stem {path : Path} {character : Char}
    (inside : character ∈ (path.stem?.getD "").toList) : character ∈ path.text.toList := by
  obtain ⟨name, listed, within⟩ := exists_component_of_mem_stem inside
  exact Text.mem_of_mem_pieces (toList_mem_pieces listed) within

theorem NameWords.oneLine {name : String} {words : List Word} (spelled : NameWords name words) :
    '\n' ∉ name.toList := by
  have word : ∀ {text : String}, Text.IsName text → '\n' ∉ text.toList := by
    intro text isName inside
    have isWordChar := isName.isWord.2 '\n' inside
    cases isWordChar
  induction spelled with
  | single isName => exact word isName
  | more _ isName ih => simp [ih, word isName]

namespace Program

variable {program : Program} {options : Options} {diagnostics : List Diagnostic} {path : Path}
  {source : String} {entered opened read : ParseState} {statements : List HeaderStatement}
  {outcome : ParseOutcome}

namespace ReadsAccepted

variable (reading : ReadsAccepted options (ParseState.start program diagnostics path source) entered
  opened read statements outcome)

include reading

/-- The unit that is new and declares types is the one that was read. -/
theorem unit_of_types {id : UnitId} {unit : CompiledUnit}
    (present : outcome.program.units[id]? = some unit) (isNew : program.units.size ≤ id)
    (types : unit.kind = .types) : unit = read.withSequenceables.unit := by
  rw [reading.finished] at present
  refine eq_ownUnit reading.published
    (fun entry listed => (reading.sequenceable_of_mem listed).1) present ?_ (by simp [types])
  have units : (settled read).program.units = program.units := reading.advanced.units
  rwa [units]

theorem noInterface_of_types (types : read.withSequenceables.unit.kind = .types) :
    read.unit.interface = none := by
  have kind : read.withSequenceables.unit.kind = unitKind read.types read.unit := by
    rw [reading.published.unit]
    rfl
  rw [types, unitKind] at kind
  split at kind
  · split at kind <;> cases kind
  · assumption

theorem printable {words : List Word} (oneLine : '\n' ∉ path.text.toList)
    (license : read.unit.license = leadingLicense? (TokenStream.ofSource source).tokens)
    (spelled : NameWords read.unit.package words) : read.withSequenceables.unit.Printable := by
  rw [reading.published.unit]
  refine ⟨?_, ?_, fun text isLicense => ?_⟩
  · have name : read.unit.name = path.stem?.getD "" := reading.advanced.name
    have inStem : '\n' ∉ read.unit.name.toList :=
      name ▸ fun inside => oneLine (Path.mem_text_of_mem_stem inside)
    simp [CompiledUnit.fullName, Package.fullName, settled, spelled.oneLine, inStem]
  · have isPath : read.unit.path = path := reading.advanced.path
    simpa [settled, isPath] using oneLine
  · exact isBlockComment_of_leadingLicense? (license ▸ isLicense)

/-- The dump of the unit is read as the file was. -/
theorem parses_unitText (reachable : program.Reachable) (first : outcome.program.types.ElementsFirst)
    (types : read.unit.interface = none) (oneLine : '\n' ∉ path.text.toList)
    (apart : ShortNamesApart read.unit.table)
    (unshared : program.KeepsSequenceablesApart source) (shows : read.unit.ShowsImports program) :
    ∃ second, Alike read second ∧
      program.parseSource options diagnostics path
        (Dump.unitText outcome.program read.withSequenceables.unit) =
          ⟨true, second.withUnits.program, second.withUnits.diagnostics⟩ := by
  obtain ⟨package, imports, words, license, spelled, imported, defined, replays⟩ :=
    reading.retells reachable types apart unshared shows
  have isUnit := reading.published.unit
  obtain ⟨tokens, sameLicense⟩ :=
    start_unitText (reading.printable oneLine license spelled) (by rw [isUnit]; exact types)
      (by rw [isUnit]; exact spelled) imported first
      (by rw [isUnit, reading.accepts.types_eq]; exact defined) program diagnostics path
  generalize Dump.unitText outcome.program read.withSequenceables.unit = text at *
  have alike : Alike (ParseState.start program diagnostics path source)
      (ParseState.start program diagnostics path text) :=
    { Alike.refl _ with
      unit := by
        rw [isUnit] at sameLicense
        have sameStart := sameLicense.trans license
        simp only [ParseState.start] at sameStart ⊢
        rw [sameStart] }
  obtain ⟨_, second, run, -, left, alikeRead⟩ := replays _ [] alike (by simpa using tokens) rfl
  have attempted : attempt (file options) (ParseState.start program diagnostics path text) =
      .ok (some ()) second := by rw [attempt, run]
  have finished : finishUnit second = .ok true second.withUnits :=
    finishUnit_eq (alikeRead.errors.trans reading.clean)
      (by rw [alikeRead.unit]; exact reading.accepts.oneThing)
      (Containment.verify_eq_nil_of_unplaced alikeRead.types alikeRead.definitions
        reading.accepts.contained)
  exact ⟨second, alikeRead, parseSource_of_finished attempted finished⟩

end ReadsAccepted

/-- The dump of an accepted unit of types is read as the unit was: parsed where the unit was parsed,
its text is accepted and gives a unit that is the same but for the order in which it sees its types,
and the types that the unit had are the same but for the places where they are declared. -/
theorem parseSource_unitText (reachable : program.Reachable)
    (accepted : (program.parseSource options diagnostics path source).accepted = true)
    {id : UnitId} {unit : CompiledUnit}
    (present : (program.parseSource options diagnostics path source).program.units[id]? = some unit)
    (isNew : program.units.size ≤ id) (types : unit.kind = .types)
    (oneLine : '\n' ∉ path.text.toList) (apart : ShortNamesApart unit.table)
    (unshared : program.KeepsSequenceablesApart source) (shows : unit.ShowsImports program) :
    let outcome := program.parseSource options diagnostics path source
    let again := program.parseSource options diagnostics path (Dump.unitText outcome.program unit)
    again.accepted = true ∧ again.program.types.unplaced = outcome.program.types.unplaced ∧
      ∃ other, again.program.units[id]? = some other ∧
        other = { unit with table := other.table } ∧
        ∀ key, other.visibleType? key = unit.visibleType? key := by
  intro outcome again
  obtain ⟨entered, opened, read, statements, reading⟩ := exists_readsAccepted reachable accepted
  obtain rfl := reading.unit_of_types present isNew types
  have first := (Reachable.parse options diagnostics path source reachable).elementsFirst
  have table : read.withSequenceables.unit.table = read.unit.table := by
    rw [reading.published.unit]
    rfl
  obtain ⟨second, alike, whole⟩ := reading.parses_unitText reachable first
    (reading.noInterface_of_types types) oneLine (table ▸ apart) unshared
    (fun entry listed imported present type declared key named seen visible =>
      shows entry (reading.published.kept listed) imported present type declared key named seen
        (by rwa [CompiledUnit.visibleType?, table]))
  obtain ⟨sameTypes, sameUnits⟩ := alike.withUnits
  have isProgram : outcome.program = read.withUnits.program := reading.finished
  have isAgain : again = ⟨true, second.withUnits.program, second.withUnits.diagnostics⟩ := whole
  rw [isAgain, isProgram]
  exact ⟨rfl, sameTypes, sameUnits id _ (isProgram ▸ present)⟩

/-- A file with a license, a known unit, a new sequenceable, an enum and a struct over all of them. -/
def mixedTypesSource : String :=
  "/* L */ package b.v1_0; sequenceable c.D; import a.v1_0.Types; " ++
    "[lite] enum E : byte \x7b A = -1, B, \x7d; struct T \x7b S s; List<E> e; D[] d; \x7d;"

/-- What comes of that file. -/
def mixedTypes : ParseOutcome :=
  structProgram.parseSource {} [] ⟨"b/v1_0/Types.idl"⟩ mixedTypesSource

/-- The unit of that file. -/
def mixedTypesUnit : CompiledUnit := mixedTypes.program.units[2]?.getD default

theorem mixedTypes_spec : mixedTypes.accepted = true ∧ mixedTypes.program.units[2]?.isSome = true ∧
    structProgram.units.size ≤ 2 ∧ mixedTypesUnit.kind = .types ∧
    ShortNamesApart mixedTypesUnit.table ∧ structProgram.KeepsSequenceablesApart mixedTypesSource ∧
    mixedTypesUnit.ShowsImports structProgram ∧ mixedTypesUnit.definitions.length = 2 := by
  decide +kernel

theorem parseSource_unitText_mixedTypes :
    mixedTypes.accepted = true ∧ mixedTypesUnit.kind = .types ∧
      '\n' ∉ "b/v1_0/Types.idl".toList ∧ ShortNamesApart mixedTypesUnit.table ∧
      structProgram.KeepsSequenceablesApart mixedTypesSource ∧
      mixedTypesUnit.ShowsImports structProgram ∧ mixedTypesUnit.definitions.length = 2 ∧
      let again := structProgram.parseSource {} [] ⟨"b/v1_0/Types.idl"⟩
        (Dump.unitText mixedTypes.program mixedTypesUnit)
      again.accepted = true ∧ again.program.types.unplaced = mixedTypes.program.types.unplaced ∧
        ∃ other, again.program.units[2]? = some other ∧
          other = { mixedTypesUnit with table := other.table } ∧
          ∀ key, other.visibleType? key = mixedTypesUnit.visibleType? key := by
  obtain ⟨accepted, isSome, isNew, types, apart, unshared, shows, defined⟩ := mixedTypes_spec
  have present : mixedTypes.program.units[2]? = some mixedTypesUnit :=
    (Option.some_get isSome).symm.trans (by rw [Option.get_eq_getD, mixedTypesUnit])
  have oneLine : '\n' ∉ "b/v1_0/Types.idl".toList := by decide
  have reachable : structProgram.Reachable := .parse _ _ _ _ .empty
  exact ⟨accepted, types, oneLine, apart, unshared, shows, defined,
    parseSource_unitText reachable accepted present isNew types oneLine apart unshared shows⟩

/-- A file whose sequenceable hides the struct of a unit that it imports. -/
def hidingSource : String :=
  "package b.v1_0; sequenceable a.v1_0.S; import a.v1_0.Types; struct T \x7b S s; \x7d;"

/-- What comes of that file. -/
def hidingOutcome : ParseOutcome := structProgram.parseSource {} [] ⟨"b/v1_0/Types.idl"⟩ hidingSource

/-- The unit of that file. -/
def hidingUnit : CompiledUnit := hidingOutcome.program.units[2]?.getD default

/-- What comes of its dump. -/
def hidingAgain : ParseOutcome :=
  structProgram.parseSource {} [] ⟨"b/v1_0/Types.idl"⟩ (Dump.unitText hidingOutcome.program hidingUnit)

/-- For each member of the structs and unions of a unit, whether it is of such a type itself. -/
def recordMembers (program : Program) (unit : CompiledUnit) : List Bool :=
  (unit.definitions.filterMap program.types.record?).flatMap fun record =>
    record.members.map fun member => (program.types.record? member.type).isSome

/-- The dump imports the struct first, and there it hides the sequenceable. -/
theorem dump_hides_sequenceable :
    hidingOutcome.accepted = true ∧ hidingOutcome.program.units[2]?.isSome = true ∧
      hidingUnit.kind = .types ∧ '\n' ∉ "b/v1_0/Types.idl".toList ∧ ShortNamesApart hidingUnit.table ∧
      structProgram.KeepsSequenceablesApart hidingSource ∧ hidingAgain.accepted = true ∧
      hidingOutcome.program.recordMembers hidingUnit = [false] ∧
      hidingAgain.program.units[2]?.map hidingAgain.program.recordMembers = some [true] := by
  decide +kernel

end Program

end DriverIdl
