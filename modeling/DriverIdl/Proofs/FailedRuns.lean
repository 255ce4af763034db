import DriverIdl.Proofs.Compilation
import DriverIdl.Proofs.Emit.Acceptance

/-!
# What a failed run leaves behind

Nothing is written before all files of a run are compiled, and then the units are rendered and
written one after another.  A run that fails for any other reason than writing has therefore left the
tree as it was, unless an accepted unit cannot be rendered: by then the units in front of it are
written.  Such a unit is one that has escaped the check against the target language.
-/

namespace DriverIdl

/-- The unit was accepted but need not be rendered: its interface is shadowed, or it mentions an
array whose elements the language cannot express. -/
def CompiledUnit.EscapesCheck (options : Options) (program : Program) (unit : CompiledUnit) : Prop :=
  (unit.interface ≠ none ∧ unit.Shadowed program) ∨
    ∃ array element, unit.Mentions program array ∧ program.types.node array = .array element ∧
      supportFault? options program.types element ≠ none

/-- Files that compile one after another make a program of accepted texts. -/
theorem Compiles.acceptedUnder {options : Options} {tree : FileTree} {first last : Program}
    {paths : List Path} (compiles : Compiles options tree first paths last)
    (start : first.AcceptedUnder options) : last.AcceptedUnder options := by
  induction compiles with
  | nil => exact start
  | cons _ accepted _ ih => exact ih (.parse [] _ _ start accepted)

/-- The units of a run that compiles are rendered, unless they have escaped the check. -/
theorem render_of_compile {options : Options} {tree : FileTree} {program : Program}
    {language : Language} {unit : CompiledUnit} (compiled : compile options tree = .ok program)
    (selected : options.language = some language) (listed : unit ∈ program.units)
    (checked : ¬unit.EscapesCheck options program) :
    ∃ files, program.render options language unit = .ok files := by
  obtain ⟨resolution, -, compiles⟩ := compiles_of_compile compiled
  have accepted := compiles.acceptedUnder .empty
  have wellFormed := accepted.reachable.wellFormed
  have notShadowed : unit.interface ≠ none → ¬unit.Shadowed program :=
    fun hasInterface shadowed => checked (.inl ⟨hasInterface, shadowed⟩)
  have arrays : ∀ array element, unit.Mentions program array →
      program.types.node array = .array element →
      supportFault? options program.types element = none := by
    intro array element mentions isArray
    by_contra fault
    exact checked (.inr ⟨array, element, mentions, isArray, fault⟩)
  have expressible := Program.expressible_of_arrays wellFormed accepted.supported listed arrays
  have shape := (wellFormed.units unit listed).shape
  exact Program.render_eq_ok selected expressible
    (Program.interfaceOf?_of_notShadowed shape notShadowed)

namespace Run

variable {α β : Type} {options : Options} {program : Program} {tree after : FileTree}
  {failure : Failure}

theorem bind_eq_error {first : Run α} {second : α → Run β} :
    (first >>= second) tree = .error failure after ↔
      first tree = .error failure after ∨
        ∃ value state, first tree = .ok value state ∧ second value state = .error failure after := by
  have opened : (first >>= second) tree = EStateM.bind first second tree := rfl
  rw [opened, EStateM.bind]
  cases first tree <;> simp

theorem exists_of_mapM_error {items : List α} {step : α → Run β}
    (failed : items.mapM step tree = .error failure after) :
    ∃ item ∈ items, ∃ state, step item state = .error failure after := by
  induction items generalizing tree with
  | nil => cases failed
  | cons item rest ih =>
      rw [List.mapM_cons] at failed
      rcases bind_eq_error.mp failed with here | ⟨value, state, -, others⟩
      · exact ⟨item, by simp, tree, here⟩
      · rcases bind_eq_error.mp others with later | ⟨values, last, -, impossible⟩
        · obtain ⟨other, listed, found⟩ := ih later
          exact ⟨other, by simp [listed], found⟩
        · cases impossible

theorem inspect_eq_error {action : FileTree → Except Failure α} :
    inspect action tree = .error failure after ↔ action tree = .error failure ∧ after = tree := by
  unfold inspect
  cases action tree <;> simp [eq_comm]

theorem inspect_eq_ok {action : FileTree → Except Failure α} {value : α} :
    inspect action tree = .ok value after ↔ action tree = .ok value ∧ after = tree := by
  unfold inspect
  cases action tree <;> simp [eq_comm]

theorem write_of_change_error {path : Path} {action : FileChange Unit}
    (failed : change path action tree = .error failure after) :
    ∃ fault, failure = .write path fault := by
  unfold change at failed
  cases acted : action tree with
  | ok value state => simp [acted] at failed
  | error fault state =>
      rw [acted] at failed
      cases failed
      exact ⟨fault, rfl⟩

theorem write_of_writeFiles_error {directory : Path} {files : List GeneratedFile}
    (failed : writeFiles directory files tree = .error failure after) :
    ∃ path fault, failure = .write path fault := by
  rcases bind_eq_error.mp failed with making | ⟨-, made, -, writing⟩
  · exact ⟨directory, write_of_change_error making⟩
  · obtain ⟨file, -, state, atFile⟩ := exists_of_mapM_error writing
    rcases bind_eq_error.mp atFile with changing | ⟨-, written, -, impossible⟩
    · exact ⟨_, write_of_change_error changing⟩
    · cases impossible

/-- Generating fails where a unit cannot be rendered or something cannot be written. -/
theorem generateUnit_error {outDir : Path} {unit : CompiledUnit}
    (failed : generateUnit options program outDir unit tree = .error failure after) :
    renderUnit options program unit = .error failure ∨
      ∃ path fault, failure = .write path fault := by
  rcases bind_eq_error.mp failed with rendering | ⟨files, state, -, rest⟩
  · exact .inl (inspect_eq_error.mp rendering).1
  · split at rest
    · cases rest
    · exact .inr (write_of_writeFiles_error rest)

theorem generate_error (generates : options.generates = true)
    (failed : generate options program tree = .error failure after)
    (notWriting : ∀ path fault, failure ≠ .write path fault) :
    ∃ unit ∈ program.units, renderUnit options program unit = .error failure := by
  simp only [Options.generates, Bool.and_eq_true, Option.isSome_iff_exists] at generates
  obtain ⟨-, outDir, isOutDir⟩ := generates
  simp only [generate, isOutDir] at failed
  rcases bind_eq_error.mp failed with atUnits | ⟨written, state, -, impossible⟩
  · obtain ⟨unit, listed, state, atUnit⟩ := exists_of_mapM_error atUnits
    rcases generateUnit_error atUnit with rendering | ⟨path, fault, writing⟩
    · exact ⟨unit, by simpa using listed, rendering⟩
    · exact absurd writing (notWriting path fault)
  · cases impossible

/-- Where a run fails: before it has changed anything, or while it generates what was compiled. -/
theorem run_error (failed : Run.run options tree = .error failure after) :
    after = tree ∨ ∃ program, compile options tree = .ok program ∧ options.generates = true ∧
      generate options program tree = .error failure after := by
  rcases bind_eq_error.mp failed with validating | ⟨_, validated, isValidated, rest⟩
  · exact .inl (inspect_eq_error.mp validating).2
  · obtain ⟨-, rfl⟩ := inspect_eq_ok.mp isValidated
    split at rest
    · rcases bind_eq_error.mp rest with hashing | ⟨hashes, state, -, impossible⟩
      · exact .inl (inspect_eq_error.mp hashing).2
      · cases impossible
    · rcases bind_eq_error.mp rest with compiling | ⟨program, compiled, isCompiled, others⟩
      · exact .inl (inspect_eq_error.mp compiling).2
      · obtain ⟨isProgram, rfl⟩ := inspect_eq_ok.mp isCompiled
        split at others
        · rename_i generates
          rcases bind_eq_error.mp others with generating | ⟨written, state, -, impossible⟩
          · exact .inr ⟨program, isProgram, generates, generating⟩
          · cases impossible
        · cases others

/-- A run that fails, and not because something cannot be written, has left the tree as it was,
unless it failed to render a unit that has escaped the check against the target language. -/
theorem failed_run_keeps_tree (failed : Run.run options tree = .error failure after)
    (notWriting : ∀ path fault, failure ≠ .write path fault) :
    after = tree ∨ ∃ fault program unit, failure = .generate fault ∧
      compile options tree = .ok program ∧ unit ∈ program.units ∧
      unit.EscapesCheck options program := by
  rcases run_error failed with same | ⟨program, compiled, generates, generating⟩
  · exact .inl same
  · obtain ⟨unit, listed, rendering⟩ := generate_error generates generating notWriting
    simp only [Options.generates, Bool.and_eq_true, Option.isSome_iff_exists] at generates
    obtain ⟨⟨language, selected⟩, -⟩ := generates
    simp only [renderUnit, selected] at rendering
    -- The unit cannot be rendered, and every unit that has passed the check can be.
    right
    cases rendered : program.render options language unit with
    | ok files => simp [rendered] at rendering
    | error fault =>
        rw [rendered] at rendering
        refine ⟨fault, program, unit, by simpa using rendering.symm, compiled, listed, ?_⟩
        by_contra checked
        obtain ⟨files, success⟩ := render_of_compile compiled selected listed checked
        rw [rendered] at success
        cases success

theorem run_of_compile_error (valid : options.validate = .ok ()) (noHash : options.genHash = false)
    (refused : compile options tree = .error failure) :
    Run.run options tree = .error failure tree := by
  simp only [run, inspect, Bind.bind, EStateM.bind, valid, Except.mapError, noHash, refused,
    Bool.false_eq_true, if_false]

theorem run_of_generate_error (valid : options.validate = .ok ()) (noHash : options.genHash = false)
    (compiled : compile options tree = .ok program) (generates : options.generates = true)
    (failed : generate options program tree = .error failure after) :
    Run.run options tree = .error failure after := by
  simp only [run, inspect, Bind.bind, EStateM.bind, valid, Except.mapError, noHash, compiled,
    generates, failed, Bool.false_eq_true, if_false, if_true]

/-- The path of one of two files. -/
def pairPath (name : String) : Path := ⟨"a/v1_0/" ++ name ++ ".idl"⟩

/-- A directory with two files of types, the first of which is in order. -/
def pairTree (second : String) : FileTree :=
  { nodes := [(["a"], .directory), (["a", "v1_0"], .directory),
      (["a", "v1_0", "A.idl"], .file structSource.toUTF8),
      (["a", "v1_0", "B.idl"], .file second.toUTF8)] }

/-- A run over both files that writes C. -/
def pairOptions : Options :=
  { sources := [pairPath "A", pairPath "B"], language := some .c, outDir := some ⟨"out"⟩ }

/-- The unit that is found in a file without imports. -/
def pairUnit (name : String) : FoundUnit :=
  ⟨⟨pairPath name, "a.v1_0", name, []⟩, ["a", "v1_0", name ++ ".idl"]⟩

/-- What comes of the second file. -/
def pairOutcome (second : String) : ParseOutcome :=
  let first := ({} : Program).parseSource pairOptions [] (pairPath "A") structSource
  first.program.parseSource pairOptions first.diagnostics (pairPath "B") second

/-- Both files have headers without imports. -/
abbrev PairHeaders (second : String) : Prop :=
  (Header.ofSource (pairPath "A") structSource).toOption = some (pairUnit "A").header ∧
    (Header.ofSource (pairPath "B") second).toOption = some (pairUnit "B").header

theorem readText_pairTree (second : String) :
    (pairTree second).readText (pairPath "A") = .ok structSource ∧
      (pairTree second).readText (pairPath "B") = .ok second :=
  ⟨Resolution.readText_of_read rfl, Resolution.readText_of_read rfl⟩

theorem resolve_pairTree {second : String} (headers : PairHeaders second) :
    Resolution.resolve pairOptions (pairTree second) =
      .ok ⟨[pairUnit "A", pairUnit "B"], [pairPath "A", pairPath "B"]⟩ := by
  have isSources : pairOptions.sources = [pairPath "A", pairPath "B"] := rfl
  exact Resolution.resolve_pair isSources
    (Resolution.scan_of_read rfl rfl (Resolution.eq_ok_of_toOption headers.1))
    (Resolution.scan_of_read rfl rfl (Resolution.eq_ok_of_toOption headers.2)) rfl rfl
    (by simp [pairUnit, FileTree.files, pairTree]) (by simp [pairUnit, FileTree.files, pairTree])
    (by decide) (by decide)

theorem compile_two {options : Options} {tree : FileTree} {units : List FoundUnit}
    {path other : Path} {source second : String}
    (resolved : Resolution.resolve options tree = .ok ⟨units, [path, other]⟩)
    (readable : tree.readText path = .ok source) (readableToo : tree.readText other = .ok second) :
    ∃ first outcome, first = ({} : Program).parseSource options [] path source ∧
      outcome = first.program.parseSource options first.diagnostics other second ∧
      compile options tree = if outcome.diagnostics.isEmpty then .ok outcome.program
        else .error (.compile outcome.diagnostics) := by
  refine ⟨_, _, rfl, rfl, ?_⟩
  simp only [compile, resolved, Bind.bind, Except.bind, List.foldl_cons, List.foldl_nil,
    Program.parseFile, readable, readableToo]
  rfl

theorem compile_pairTree {second : String} (headers : PairHeaders second) :
    compile pairOptions (pairTree second) =
      if (pairOutcome second).diagnostics.isEmpty then .ok (pairOutcome second).program
      else .error (.compile (pairOutcome second).diagnostics) := by
  obtain ⟨readable, readableToo⟩ := readText_pairTree second
  obtain ⟨_, _, rfl, isOutcome, compiled⟩ :=
    compile_two (resolve_pairTree headers) readable readableToo
  rw [compiled, isOutcome, pairOutcome]

/-- A file that is refused, since its struct has no members. -/
def emptyStructSource : String := "package a.v1_0; struct T \x7b \x7d;"

/-- A file that is accepted, but not rendered in C. -/
def queueArraySource : String := "package a.v1_0; struct T \x7b SharedMemQueue<int>[] x; \x7d;"

/-- Whether a result is the failure to render a unit of that run, with more files than before. -/
def leavesFiles : EStateM.Result Failure FileTree (List Path) → Bool
  | .error (.generate _) after => after.nodes.length != (pairTree queueArraySource).nodes.length
  | _ => false

/-- What comes of the first file, and of each of the second ones behind it. -/
theorem pairOutcome_spec :
    (({} : Program).parseSource pairOptions [] (pairPath "A") structSource).accepted = true ∧
      PairHeaders emptyStructSource ∧
      (pairOutcome emptyStructSource).diagnostics.isEmpty = false ∧
      PairHeaders queueArraySource ∧
      (pairOutcome queueArraySource).diagnostics.isEmpty = true ∧
      leavesFiles (generate pairOptions (pairOutcome queueArraySource).program
        (pairTree queueArraySource)) = true := by
  decide +kernel

theorem compile_emptyStruct : ∃ diagnostics,
    compile pairOptions (pairTree emptyStructSource) = .error (.compile diagnostics) := by
  obtain ⟨-, headers, refused, -⟩ := pairOutcome_spec
  have compiled := compile_pairTree headers
  rw [refused] at compiled
  exact ⟨_, compiled⟩

theorem refused_pair_keeps_tree : ∃ diagnostics after,
    Run.run pairOptions (pairTree emptyStructSource) = .error (.compile diagnostics) after ∧
      after = pairTree emptyStructSource := by
  obtain ⟨diagnostics, refused⟩ := compile_emptyStruct
  have failed := run_of_compile_error rfl rfl refused
  refine ⟨_, _, failed, ?_⟩
  rcases failed_run_keeps_tree failed (by simp) with same | ⟨fault, program, unit, impossible, -⟩
  · exact same
  · cases impossible

/-- A run over both files writes the first unit and then fails to render the second. -/
theorem failed_run_changes_tree : ∃ fault after,
    Run.run pairOptions (pairTree queueArraySource) = .error (.generate fault) after ∧
      after ≠ pairTree queueArraySource := by
  obtain ⟨-, -, -, headers, accepted, leaves⟩ := pairOutcome_spec
  have compiled := compile_pairTree headers
  rw [accepted, if_pos rfl] at compiled
  generalize generated : generate pairOptions (pairOutcome queueArraySource).program
      (pairTree queueArraySource) = result at leaves
  match result with
  | .error (.generate fault) after =>
      refine ⟨fault, after, run_of_generate_error rfl rfl compiled rfl generated, ?_⟩
      rintro rfl
      simp [leavesFiles] at leaves

end Run

end DriverIdl
