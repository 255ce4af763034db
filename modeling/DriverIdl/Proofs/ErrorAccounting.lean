import DriverIdl.Proofs.FailedRuns
import DriverIdl.Proofs.Parsing.Recovery

/-!
# Error accounting

No text is refused silently, and none is accepted with a fault: parsing puts its faults behind the
earlier ones, and there are some exactly if the text is refused.  A compilation looks only at the
faults that are left at its end, so it fails exactly if one of its files was refused.
-/

namespace DriverIdl

variable {options : Options} {program : Program} {diagnostics : List Diagnostic}

/-- Parsing has kept the earlier faults, and has found some exactly if it has refused. -/
def ParseOutcome.Accounts (diagnostics : List Diagnostic) (outcome : ParseOutcome) : Prop :=
  ∃ found, outcome.diagnostics = diagnostics ++ found ∧
    (outcome.accepted = false ↔ found ≠ []) ∧ (outcome.accepted = true ↔ found = [])

namespace Program

theorem parseSource_accounts (path : Path) (source : String) :
    (program.parseSource options diagnostics path source).Accounts diagnostics := by
  obtain ⟨read, early, late, course⟩ := exists_course program options diagnostics path source
  have accepted := course.accepted
  rw [← List.append_eq_nil_iff] at accepted
  refine ⟨early ++ late, course.diagnostics, ?_, accepted⟩
  rw [← Bool.not_eq_true, accepted]

theorem parseFile_accounts (path : Path) (content : Except FileFault String) :
    (program.parseFile options diagnostics path content).Accounts diagnostics := by
  cases content with
  | ok source => exact parseSource_accounts path source
  | error fault => exact ⟨_, rfl, by simp [parseFile], by simp [parseFile]⟩

end Program

/-- What comes of files that are parsed one after another. -/
def fileOutcomes (options : Options) (tree : FileTree) :
    Program → List Diagnostic → List Path → List ParseOutcome
  | _, _, [] => []
  | program, diagnostics, path :: rest =>
    let outcome := program.parseFile options diagnostics path (tree.readText path)
    outcome :: fileOutcomes options tree outcome.program outcome.diagnostics rest

/-- The faults of all files are none exactly if no file was refused. -/
theorem foldl_accounts (tree : FileTree) (paths : List Path) :
    ∃ found, (paths.foldl
      (fun (program, diagnostics) path =>
        let outcome := Program.parseFile options program diagnostics path (tree.readText path)
        (outcome.program, outcome.diagnostics))
      (program, diagnostics)).2 = diagnostics ++ found ∧
      (found = [] ↔ ∀ outcome ∈ fileOutcomes options tree program diagnostics paths,
        outcome.accepted = true) := by
  induction paths generalizing program diagnostics with
  | nil => exact ⟨[], by simp, by simp [fileOutcomes]⟩
  | cons path rest ih =>
      obtain ⟨early, grown, -, accepted⟩ :=
        program.parseFile_accounts path (tree.readText path)
      obtain ⟨late, folded, others⟩ := ih
      refine ⟨early ++ late, ?_, ?_⟩
      · rw [List.foldl_cons, folded, grown, List.append_assoc]
      · rw [List.append_eq_nil_iff, others, ← accepted, fileOutcomes, List.forall_mem_cons]

/-- Once its files are found, a compilation fails exactly if one of them is refused. -/
theorem compile_error_iff {tree : FileTree} {resolution : Resolution}
    (resolved : Resolution.resolve options tree = .ok resolution) :
    (∃ failure, compile options tree = .error failure) ↔
      ∃ outcome ∈ fileOutcomes options tree {} [] resolution.paths, outcome.accepted = false := by
  obtain ⟨found, folded, accepted⟩ := @foldl_accounts options {} [] tree resolution.paths
  rw [List.nil_append] at folded
  obtain ⟨last, compiled⟩ : ∃ last, compile options tree =
      if found.isEmpty then .ok last else .error (.compile found) := by
    rw [compile, resolved, ← folded]
    exact ⟨_, rfl⟩
  have refused : found ≠ [] ↔
      ∃ outcome ∈ fileOutcomes options tree {} [] resolution.paths, outcome.accepted = false := by
    rw [Ne, accepted]
    simp
  rw [compiled, ← refused]
  cases found with
  | nil => simp
  | cons first others => simp

/-- All errors are accounted for.  Parsing a text, into any program, keeps the earlier faults; it
finds some exactly if it refuses the text and none exactly if it accepts it.  Parsing recovers in the
standard way, but an accepted text is parsed alike in any other, so recovery has skipped nothing of
it.  Once the files of a run are found, compiling them fails exactly if one of them is refused. -/
theorem errors_are_accounted_for (options : Options) :
    (∀ (program : Program) (diagnostics : List Diagnostic) (path : Path) (source : String),
      (program.parseSource options diagnostics path source).Accounts diagnostics ∧
        Recovery.standard.parseSource options program diagnostics path source =
          program.parseSource options diagnostics path source ∧
        ((program.parseSource options diagnostics path source).accepted = true →
          ∀ recovery : Recovery, recovery.parseSource options program diagnostics path source =
            program.parseSource options diagnostics path source)) ∧
      ∀ (tree : FileTree) (resolution : Resolution),
        Resolution.resolve options tree = .ok resolution →
          ((∃ failure, compile options tree = .error failure) ↔
            ∃ outcome ∈ fileOutcomes options tree {} [] resolution.paths,
              outcome.accepted = false) := by
  constructor
  · intro program diagnostics path source
    refine ⟨Program.parseSource_accounts path source, Recovery.parseSource_standard, ?_⟩
    intro accepted recovery
    exact recovery.parseSource_of_accepted accepted
  · intro tree resolution resolved
    exact compile_error_iff resolved

/-- Recovery that skips nothing. -/
def Recovery.none : Recovery := ⟨pure (), pure ()⟩

/-- A struct is accepted without recovery, and one of two files is refused as they do not compile. -/
theorem struct_and_pair_are_accounted_for :
    (Recovery.none.parseSource Run.pairOptions {} [] (Run.pairPath "A") structSource).accepted =
        true ∧
      ∃ resolution,
        Resolution.resolve Run.pairOptions (Run.pairTree Run.emptyStructSource) = .ok resolution ∧
        ∃ outcome ∈ fileOutcomes Run.pairOptions (Run.pairTree Run.emptyStructSource) {} []
          resolution.paths, outcome.accepted = false := by
  obtain ⟨sources, trees⟩ := errors_are_accounted_for Run.pairOptions
  obtain ⟨accepted, found, -⟩ := Run.pairOutcome_spec
  constructor
  · rw [(sources {} [] (Run.pairPath "A") structSource).2.2 accepted Recovery.none]
    exact accepted
  · have resolved := Run.resolve_pairTree found
    obtain ⟨diagnostics, refused⟩ := Run.compile_emptyStruct
    exact ⟨_, resolved, (trees _ _ resolved).mp ⟨_, refused⟩⟩

end DriverIdl
