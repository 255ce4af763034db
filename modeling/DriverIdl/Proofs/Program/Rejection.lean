import DriverIdl.Proofs.Program.Reachable

/-!
# What a refused text leaves behind

A text that is refused adds no unit, no name and no type.  It may still leave a mark: an import sets
the flag of the imported interface as soon as it is read, and cutting the arena back to its length
does not unset it.  This is all: a text whose imports are all marked already leaves nothing.
-/

namespace DriverIdl

namespace Program

/-- The type is the interface of a unit that a text imports. -/
def ImportsInterface (program : Program) (source : String) (id : TypeId) : Prop :=
  ∃ name unitId unit, Announces .importWord name (sourceTokens source) ∧
    program.find? name = some unitId ∧ program.units[unitId]? = some unit ∧ unit.interface = some id

theorem importsInterface_of_start {program : Program} {diagnostics : List Diagnostic} {path : Path}
    {source : String} {id : TypeId}
    (imports : (ParseState.start program diagnostics path source).ImportsInterface id) :
    program.ImportsInterface source id := by
  obtain ⟨name, unitId, announced, found, declared⟩ := imports
  obtain ⟨unit, present, -⟩ := find?_eq_some found
  refine ⟨name, unitId, unit, announced, found, present, ?_⟩
  have isUnit : program.units[unitId]? = some unit := present
  simpa [ParseState.start, isUnit] using declared

/-- A refused text keeps units, names and the number of types.  Every type stays as it was, but for
the mark of interfaces that the text imports; if these are marked already, nothing changes. -/
theorem rejected_keeps_all_but_marks {program : Program} (reachable : program.Reachable)
    {options : Options} {diagnostics : List Diagnostic} {path : Path} {source : String}
    {outcome : ParseOutcome}
    (parsed : program.parseSource options diagnostics path source = outcome)
    (rejected : outcome.accepted = false) :
    outcome.program.units = program.units ∧
      (∀ name, outcome.program.find? name = program.find? name) ∧
      outcome.program.types.size = program.types.size ∧
      (∀ id < program.types.size, outcome.program.types.node id = program.types.node id ∨
        program.ImportsInterface source id ∧
          outcome.program.types.node id = Parse.markSerializable (program.types.node id)) ∧
      ((∀ id, program.ImportsInterface source id →
          Parse.markSerializable (program.types.node id) = program.types.node id) →
        outcome.program.types = program.types) := by
  have wellFormed := reachable.wellFormed
  obtain ⟨read, advanced, outcomes⟩ :=
    parseSource_cases wellFormed options diagnostics path source
  rw [parsed] at outcomes
  rcases outcomes with rejects | accepts
  · have units : outcome.program.units = program.units := by
      rw [rejects.program]
      exact advanced.units
    obtain ⟨size, nodes⟩ := rejects.types advanced wellFormed.types
    have marks : ∀ id < program.types.size, outcome.program.types.node id = program.types.node id ∨
        program.ImportsInterface source id ∧
          outcome.program.types.node id = Parse.markSerializable (program.types.node id) :=
      fun id below => (nodes id below).imp_right fun ⟨imports, marked⟩ =>
        ⟨importsInterface_of_start imports, marked⟩
    refine ⟨units, fun name => by rw [find?, units, find?], size, marks, fun markedAlready => ?_⟩
    apply TypeArena.ext_node size
    intro id below
    rw [size] at below
    rcases marks id below with same | ⟨imports, marked⟩
    · exact same
    · exact marked.trans (markedAlready id imports)
  · rw [accepts.accepted] at rejected
    cases rejected

/-- A file with an interface. -/
def interfaceSource : String := "package a.v1_0; interface IFoo \x7b Get([out] int v); \x7d"

/-- A file that imports the interface and is refused, since its struct has no members. -/
def refusedImportSource : String := "package a.v1_0; import a.v1_0.IFoo; struct S \x7b \x7d;"

/-- The program of the interface alone. -/
def interfaceProgram : Program :=
  (({} : Program).parseSource {} [] ⟨"a/v1_0/IFoo.idl"⟩ interfaceSource).program

/-- The outcome of the refused file. -/
def refusedImport : ParseOutcome :=
  interfaceProgram.parseSource {} [] ⟨"a/v1_0/Bad.idl"⟩ refusedImportSource

theorem refusedImport_flags :
    refusedImport.accepted = false ∧
      (interfaceProgram.types.interface? Primitive.all.length).map InterfaceType.serializable =
        some false ∧
      (refusedImport.program.types.interface? Primitive.all.length).map InterfaceType.serializable =
        some true := by
  decide +kernel

theorem rejected_import_keeps_units : refusedImport.program.units = interfaceProgram.units :=
  (rejected_keeps_all_but_marks (.parse {} [] ⟨"a/v1_0/IFoo.idl"⟩ interfaceSource .empty) rfl
    refusedImport_flags.1).1

/-- The refused file has left its mark on the interface. -/
theorem rejected_import_marks_interface :
    interfaceProgram.Reachable ∧ refusedImport.accepted = false ∧
      refusedImport.program.types ≠ interfaceProgram.types := by
  obtain ⟨rejected, unmarked, marked⟩ := refusedImport_flags
  refine ⟨.parse {} [] ⟨"a/v1_0/IFoo.idl"⟩ interfaceSource .empty, rejected, fun same => ?_⟩
  rw [same, unmarked] at marked
  cases marked

end Program

end DriverIdl
