import DriverIdl.Proofs.Program.Reachable

/-!
# The faults of a text

Whatever program a text is parsed into, parsing reads the text and then finishes its unit.  Each part
puts its faults behind the earlier ones, and the text is accepted if and only if neither part has
found any.
-/

namespace DriverIdl

namespace Program

open Parse ParseState

/-- The course of parsing a text: what is read up to, and what is found on the way and at the end. -/
structure Course (options : Options) (start read : ParseState) (early late : List Diagnostic)
    (outcome : ParseOutcome) : Prop where
  reads : ∃ result, attempt (file options) start = .ok result read
  grown : read.diagnostics = start.diagnostics ++ early
  clean : read.errors = 0 ↔ early = []
  finishes : ∃ state, finishUnit read = .ok outcome.accepted state
  diagnostics : outcome.diagnostics = start.diagnostics ++ (early ++ late)
  accepted : outcome.accepted = true ↔ early = [] ∧ late = []
  quiet : ∀ diagnostic ∈ late, diagnostic.kind = .semantic ∨ diagnostic.kind = .structural

theorem attempt_ok {α : Type} (production : Parse α) (state : ParseState) :
    ∃ result after, attempt production state = .ok result after := by
  simp only [attempt]
  split
  · exact ⟨_, _, rfl⟩
  · exact ⟨_, _, rfl⟩

theorem exists_course (program : Program) (options : Options) (diagnostics : List Diagnostic)
    (path : Path) (source : String) :
    ∃ read early late, Course options (ParseState.start program diagnostics path source) read early
      late (program.parseSource options diagnostics path source) := by
  have reads : Ensures 0 True (ParseState.start program diagnostics path source)
      (attempt (file options)) _ := .attempt (.file (fresh_start diagnostics path source))
  have since := since_start diagnostics path source (Nat.zero_le program.types.size)
  obtain ⟨result, read, run⟩ :=
    attempt_ok (file options) (ParseState.start program diagnostics path source)
  obtain ⟨early, grown, count⟩ := eq_or_grown_of_advances (reads.ok run since).1 rfl
  obtain ⟨accepted, state, late, finished, grownMore, isAccepted, isRefused, kinds⟩ :=
    finishUnit_faults read
  refine ⟨read, early, late, ?_⟩
  rw [parseSource_of_finished run finished]
  refine ⟨⟨result, run⟩, grown, count, ⟨state, finished⟩, ?_, ?_, kinds⟩
  · rw [grownMore, grown, List.append_assoc]
  · constructor
    · intro yes
      obtain ⟨clean, nothing⟩ := isAccepted yes
      exact ⟨count.mp clean, nothing⟩
    · -- Finishing refuses a unit in silence only if faults were found while it was read.
      rintro ⟨noneEarly, noneLate⟩
      by_contra no
      exact isRefused (by simpa using no) (count.mpr noneEarly) noneLate

end Program

end DriverIdl
