import DriverIdl.Proofs.FailedRuns
import DriverIdl.Proofs.Paths
import DriverIdl.Proofs.Text.Signs

/-!
# Where generated files are written

A file is named for its unit: in the convention of its language, without the `I` of an interface for
the code of one side, and with the role of that code behind it.  Two names may become one that way,
and nothing notices if the second file is written over the first.  This takes two units of one
package: the files of one unit have different names, and each package has a directory of its own.
-/

namespace DriverIdl

section Casing

theorem Text.baseName_suffix (name : String) : (baseName name).toList <:+ name.toList := by
  rw [baseName]
  split
  · rename_i second rest spelled
    split
    · rw [spelled, String.toList_ofList]
      exact List.suffix_cons _ _
    · exact List.suffix_refl _
  · exact List.suffix_refl _

/-- Only the capital that becomes two characters makes a text longer, and it does so in both
conventions. -/
theorem Text.length_lowerFrom_le {lowerBefore : List Char} {snakeBefore : Option Char}
    (characters : List Char) :
    (lowerFrom lowerBefore characters).length ≤ (snakeFrom snakeBefore characters).length := by
  induction characters generalizing lowerBefore snakeBefore with
  | nil => exact Nat.le_refl _
  | cons character rest ih =>
      have later := @ih (character :: lowerBefore) (some character)
      obtain ⟨mark, -, step⟩ := snakeFrom_cons snakeBefore character rest
      rw [lowerFrom, step]
      have single : isUppercase character = false → (lowerChars character).length = 1 := by
        intro notUpper
        rw [lowerChars]
        split
        · rfl
        · split
          · rename_i dotted
            have isUpper : isUppercase character = true := by
              rw [isUppercase, beq_iff_eq.mp dotted]
              rfl
            rw [isUpper] at notUpper
            cases notUpper
          · rfl
      have least : 1 ≤ (lowerChars character).length := by
        rw [lowerChars]
        split
        · simp
        · split <;> simp
      have mapped : (if character.toNat == 0x3a3 then
          [Char.ofNat (if leadsToCased lowerBefore && !leadsToCased rest then 0x3c2 else 0x3c3)]
          else lowerChars character).length ≤ (lowerChars character).length := by
        split
        · exact least
        · exact Nat.le_refl _
      simp only [List.length_append]
      cases upper : isUppercase character with
      | true =>
          simp only [if_true, List.length_append]
          omega
      | false =>
          have one := single upper
          simp only [Bool.false_eq_true, if_false, List.length_cons]
          omega

/-- What the `I` adds to a file name is at most a letter and an underscore. -/
theorem Text.length_snakeCase_le (name : String) :
    (snakeCase name).length ≤ (snakeCase (baseName name)).length + 2 := by
  rw [baseName]
  split
  · rename_i second rest spelled
    split
    · rename_i upper
      obtain ⟨none, isNone, first⟩ := snakeFrom_cons .none 'I' (second :: rest)
      obtain ⟨mark, isMark, behind⟩ := snakeFrom_cons (some 'I') second rest
      obtain ⟨other, -, alone⟩ := snakeFrom_cons .none second rest
      have letter : (lowerChars 'I').length = 1 := rfl
      have empty : none.length = 0 := by rcases isNone with rfl | ⟨-, impossible⟩ <;> simp_all
      have short : mark.length ≤ 1 := by rcases isMark with rfl | ⟨rfl, -⟩ <;> simp
      simp only [snakeCase, spelled, String.toList_ofList, String.length_ofList, first, behind,
        alone, upper, if_true, List.length_append, show isUppercase 'I' = true from rfl]
      omega
    · omega
  · omega

theorem Text.length_name_le (name : String) : name.length ≤ (baseName name).length + 1 := by
  rw [baseName]
  split
  · rename_i second rest spelled
    split
    · rw [← String.length_toList, spelled, String.length_ofList, List.length_cons]
    · omega
  · omega

end Casing

section Names

/-- The name of a file for one side of an interface, in C and C++. -/
def roleFile (unit : CompiledUnit) (role extension : String) : String :=
  Text.snakeCase (Text.baseName unit.name) ++ "_" ++ role ++ "." ++ extension

/-- The names of the files of an artifact. -/
def Language.fileNames (unit : CompiledUnit) : Language → Artifact → List String
  | .c, .customTypes => [Text.snakeCase unit.name ++ ".h", Text.snakeCase unit.name ++ ".c"]
  | .c, .interface => [Text.snakeCase unit.name ++ ".h"]
  | .c, .proxy => [roleFile unit "proxy" "c"]
  | .c, .stub => [roleFile unit "stub" "h", roleFile unit "stub" "c"]
  | .c, .driver => [roleFile unit "driver" "c"]
  | .c, .serviceImpl => [roleFile unit "service" "c"]
  | .cpp, .customTypes => [Text.lowercase unit.name ++ ".h", Text.lowercase unit.name ++ ".cpp"]
  | .cpp, .interface => [Text.lowercase unit.name ++ ".h"]
  | .cpp, .proxy => [roleFile unit "proxy" "h", roleFile unit "proxy" "cpp"]
  | .cpp, .stub => [roleFile unit "stub" "h", roleFile unit "stub" "cpp"]
  | .cpp, .driver => [roleFile unit "driver" "cpp"]
  | .cpp, .serviceImpl => [roleFile unit "service" "h", roleFile unit "service" "cpp"]
  | .java, .customTypes | .java, .interface => [unit.name ++ ".java"]
  | .java, .proxy => [Text.baseName unit.name ++ "Proxy" ++ ".java"]
  | .java, _ => []

/-- The names of the files of a unit, if it exists in the build. -/
def Program.fileNames (program : Program) (options : Options) (unit : CompiledUnit) : List String :=
  match options.language with
  | none => []
  | some language =>
    if program.shows options unit then
      ((Artifact.forUnit unit.kind options.buildTarget).filter language.supports).flatMap
        (language.fileNames unit)
    else []

theorem Artifact.map_name_of_render (context : EmitContext) {language : Language}
    {artifact : Artifact} {files : List GeneratedFile}
    (rendered : artifact.render context language = .ok files) :
    files.map GeneratedFile.name = language.fileNames context.unit artifact := by
  cases language with
  | c =>
      cases artifact with
      | customTypes =>
          obtain ⟨definitions, -, rest⟩ := Emit.bind_eq_ok.mp rendered
          obtain ⟨bodies, -, rest⟩ := Emit.bind_eq_ok.mp rest
          cases rest
          rfl
      | interface | proxy | stub | serviceImpl =>
          obtain ⟨methods, -, rest⟩ := Emit.bind_eq_ok.mp rendered
          obtain ⟨bodies, -, rest⟩ := Emit.bind_eq_ok.mp rest
          cases rest
          rfl
      | driver =>
          cases rendered
          rfl
  | cpp =>
      cases artifact with
      | customTypes | driver =>
          cases rendered
          rfl
      | interface | stub | serviceImpl =>
          obtain ⟨methods, -, rest⟩ := Emit.bind_eq_ok.mp rendered
          cases rest
          rfl
      | proxy =>
          obtain ⟨interface, -, rest⟩ := Emit.bind_eq_ok.mp rendered
          obtain ⟨methods, -, rest⟩ := Emit.bind_eq_ok.mp rest
          cases rest
          rfl
  | java =>
      cases artifact with
      | customTypes =>
          obtain ⟨classes, -, rest⟩ := Emit.bind_eq_ok.mp rendered
          cases rest
          rfl
      | interface =>
          obtain ⟨methods, -, rest⟩ := Emit.bind_eq_ok.mp rendered
          obtain ⟨signatures, -, rest⟩ := Emit.bind_eq_ok.mp rest
          cases rest
          rfl
      | proxy =>
          obtain ⟨interface, -, rest⟩ := Emit.bind_eq_ok.mp rendered
          obtain ⟨methods, -, rest⟩ := Emit.bind_eq_ok.mp rest
          obtain ⟨bodies, -, rest⟩ := Emit.bind_eq_ok.mp rest
          cases rest
          rfl
      | _ => cases rendered

theorem map_flatten_of_mapM {α : Type} {items : List α} {step : α → Emit (List GeneratedFile)}
    {names : α → List String} {rendered : List (List GeneratedFile)}
    (each : ∀ item files, step item = .ok files → files.map GeneratedFile.name = names item)
    (run : items.mapM step = .ok rendered) :
    rendered.flatten.map GeneratedFile.name = items.flatMap names := by
  induction items generalizing rendered with
  | nil =>
      cases run
      rfl
  | cons item rest ih =>
      rw [List.mapM_cons] at run
      obtain ⟨files, isFiles, others⟩ := Emit.bind_eq_ok.mp run
      obtain ⟨more, isMore, last⟩ := Emit.bind_eq_ok.mp others
      cases last
      rw [List.flatten_cons, List.map_append, each item files isFiles, ih isMore, List.flatMap_cons]

theorem Program.map_name_of_render {program : Program} {options : Options} {language : Language}
    {unit : CompiledUnit} {files : List GeneratedFile} (selected : options.language = some language)
    (rendered : program.render options language unit = .ok files) :
    files.map GeneratedFile.name = program.fileNames options unit := by
  rw [render] at rendered
  simp only [fileNames, selected]
  split at rendered
  · rename_i isShown
    obtain ⟨artifacts, run, last⟩ := Emit.bind_eq_ok.mp rendered
    rw [if_pos isShown, ← Except.ok.inj last]
    exact map_flatten_of_mapM (fun _ _ => Artifact.map_name_of_render ⟨options, program, unit⟩) run
  · rename_i isHidden
    rw [if_neg isHidden, ← Except.ok.inj rendered]
    rfl

end Names

section UnitFiles

variable {unit : CompiledUnit}

@[simp] theorem roleFile_inj {role other extension second : String} :
    roleFile unit role extension = roleFile unit other second ↔
      role ++ "." ++ extension = other ++ "." ++ second := by
  simp only [roleFile, ← String.toList_inj, String.toList_append, List.append_assoc,
    List.append_cancel_left_eq]

/-- A role makes a file name longer than the convention of the language does. -/
theorem ne_roleFile {stem role extension : String}
    (short : stem.length ≤ (Text.snakeCase (Text.baseName unit.name)).length + 2)
    (isRole : 4 ≤ role.length) : stem ++ ".h" ≠ roleFile unit role extension := by
  intro same
  have length := congrArg String.length same
  have header : ".h".length = 2 := rfl
  have underscore : "_".length = 1 := rfl
  have dot : ".".length = 1 := rfl
  simp only [roleFile, String.length_append] at length
  omega

/-- The names of the files of all sides of an interface are different. -/
theorem Language.nodup_interface_fileNames (language : Language) (unit : CompiledUnit) :
    ([.interface, .proxy, .driver, .stub, .serviceImpl].flatMap
      (language.fileNames unit)).Nodup := by
  have snake := Text.length_snakeCase_le unit.name
  have lower : (Text.lowercase unit.name).length ≤ (Text.snakeCase unit.name).length := by
    simpa [Text.lowercase, Text.snakeCase] using Text.length_lowerFrom_le unit.name.toList
  cases language with
  | c =>
      simp only [fileNames, List.flatMap_cons, List.flatMap_nil, List.cons_append, List.nil_append,
        List.append_nil, List.nodup_cons, List.mem_cons, List.not_mem_nil, not_or, roleFile_inj]
      refine ⟨⟨?_, ?_, ?_, ?_, ?_, id⟩, by decide⟩ <;> exact ne_roleFile snake (by decide)
  | cpp =>
      simp only [fileNames, List.flatMap_cons, List.flatMap_nil, List.cons_append, List.nil_append,
        List.append_nil, List.nodup_cons, List.mem_cons, List.not_mem_nil, not_or, roleFile_inj]
      refine ⟨⟨?_, ?_, ?_, ?_, ?_, ?_, ?_, id⟩, by decide⟩ <;>
        exact ne_roleFile (Nat.le_trans lower snake) (by decide)
  | java =>
      have name := Text.length_name_le unit.name
      have different : unit.name ++ ".java" ≠ Text.baseName unit.name ++ "Proxy" ++ ".java" := by
        intro same
        have length := congrArg String.length same
        have proxy : "Proxy".length = 5 := rfl
        simp only [String.length_append] at length
        omega
      simpa [fileNames] using different

theorem Language.nodup_types_fileNames (language : Language) (unit : CompiledUnit) :
    (language.fileNames unit .customTypes).Nodup := by
  cases language <;> simp [fileNames, String.append_right_inj]

theorem Artifact.forUnit_sublist (kind : UnitKind) (target : BuildTarget) :
    (Artifact.forUnit kind target).Sublist [.customTypes] ∨
      (Artifact.forUnit kind target).Sublist
        [.interface, .proxy, .driver, .stub, .serviceImpl] := by
  cases kind <;> cases target <;> decide

/-- The files of one unit have different names. -/
theorem Program.nodup_fileNames (program : Program) (options : Options) (unit : CompiledUnit) :
    (program.fileNames options unit).Nodup := by
  rw [fileNames]
  split
  · exact List.nodup_nil
  · rename_i language selected
    split
    · have among {artifacts : List Artifact}
          (within : (Artifact.forUnit unit.kind options.buildTarget).Sublist artifacts)
          (whole : (artifacts.flatMap (language.fileNames unit)).Nodup) :
          (((Artifact.forUnit unit.kind options.buildTarget).filter language.supports).flatMap
            (language.fileNames unit)).Nodup := by
        have kept : (List.filter language.supports _).Sublist artifacts :=
          List.filter_sublist.trans within
        obtain ⟨each, apart⟩ := List.nodup_flatMap.mp whole
        exact List.nodup_flatMap.mpr
          ⟨fun artifact listed => each artifact (kept.subset listed), apart.sublist kept⟩
      rcases Artifact.forUnit_sublist unit.kind options.buildTarget with types | interface
      · exact among types (by simpa using language.nodup_types_fileNames unit)
      · exact among interface (language.nodup_interface_fileNames unit)
    · exact List.nodup_nil

end UnitFiles

section Placement

/-- What makes the files of a unit fall into a directory of their package. -/
structure CompiledUnit.Placed (unit : CompiledUnit) : Prop where
  dotted : Package.Dotted unit.package
  undivided : '/' ∉ unit.name.toList

namespace Program

variable {program : Program} {options : Options} {diagnostics : List Diagnostic} {path : Path}
  {source : String} {unit : CompiledUnit}

theorem placed_parseSource (wellFormed : program.WellFormed)
    (placed : ∀ unit ∈ program.units, unit.kind ≠ .sequenceable → unit.Placed)
    (listed : unit ∈ (program.parseSource options diagnostics path source).program.units)
    (notSequenceable : unit.kind ≠ .sequenceable) : unit.Placed := by
  obtain ⟨read, advanced, rejects | accepts⟩ :=
    parseSource_cases wellFormed options diagnostics path source
  · rw [rejects.program, advanced.units] at listed
    exact placed unit listed notSequenceable
  · rcases accepts.mem_units listed with isOld | ⟨entry, isListed, rfl⟩
      | ⟨state, published, rfl, -, -⟩
    · exact placed unit (advanced.units ▸ isOld) notSequenceable
    · obtain ⟨-, package, name, namespaceId, type, rfl, -⟩ :=
        accepts.built.sequenceables entry isListed
      exact absurd rfl notSequenceable
    · rw [published.unit]
      constructor
      · obtain ⟨read, announced⟩ := accepts.built.package
        exact announced.dotted
          (ParseState.sound_start diagnostics path source wellFormed).spelled
      · have named : read.unit.name = path.stem?.getD "" := advanced.name
        show '/' ∉ read.unit.name.toList
        rw [named]
        exact path.undivided_stem

theorem Reachable.placed (reachable : program.Reachable) (listed : unit ∈ program.units)
    (notSequenceable : unit.kind ≠ .sequenceable) : unit.Placed := by
  induction reachable generalizing unit with
  | empty => exact absurd listed (by simp)
  | parse options diagnostics path source reachable ih =>
      exact placed_parseSource reachable.wellFormed (fun _ => ih) listed notSequenceable

end Program

theorem isFileName_roleFile {unit : CompiledUnit} {role extension : String}
    (undivided : '/' ∉ (Text.snakeCase (Text.baseName unit.name)).toList)
    (isName : Path.IsFileName ("_" ++ role ++ "." ++ extension)) :
    Path.IsFileName (roleFile unit role extension) := by
  have spelled : roleFile unit role extension =
      Text.snakeCase (Text.baseName unit.name) ++ ("_" ++ role ++ "." ++ extension) := by
    simp only [roleFile, String.append_assoc]
  rw [spelled]
  exact .append undivided isName

/-- The names of an artifact's files are names of files. -/
theorem Language.isFileName_of_mem {unit : CompiledUnit} (undivided : '/' ∉ unit.name.toList)
    {language : Language} {artifact : Artifact} {name : String}
    (listed : name ∈ language.fileNames unit artifact) : Path.IsFileName name := by
  have base : '/' ∉ (Text.baseName unit.name).toList :=
    fun inside => undivided ((Text.baseName_suffix unit.name).subset inside)
  have snake {text : String} (plain : '/' ∉ text.toList) : '/' ∉ (Text.snakeCase text).toList := by
    rw [Text.snakeCase, String.toList_ofList]
    exact fun inside => plain (Text.sign_of_mem_snakeFrom (by decide) inside)
  have lower : '/' ∉ (Text.lowercase unit.name).toList := by
    rw [Text.lowercase, String.toList_ofList]
    exact fun inside => undivided (Text.sign_of_mem_lowerFrom (by decide) inside)
  have role {role extension : String} := @isFileName_roleFile unit role extension (snake base)
  cases language with
  | c =>
      cases artifact with
      | customTypes =>
          rcases List.mem_pair.mp listed with rfl | rfl <;>
            exact .append (snake undivided) (by decide)
      | interface =>
          rw [List.mem_singleton.mp listed]
          exact .append (snake undivided) (by decide)
      | stub => rcases List.mem_pair.mp listed with rfl | rfl <;> exact role (by decide)
      | proxy | driver | serviceImpl =>
          rw [List.mem_singleton.mp listed]
          exact role (by decide)
  | cpp =>
      cases artifact with
      | customTypes =>
          rcases List.mem_pair.mp listed with rfl | rfl <;> exact .append lower (by decide)
      | interface =>
          rw [List.mem_singleton.mp listed]
          exact .append lower (by decide)
      | proxy | stub | serviceImpl =>
          rcases List.mem_pair.mp listed with rfl | rfl <;> exact role (by decide)
      | driver =>
          rw [List.mem_singleton.mp listed]
          exact role (by decide)
  | java =>
      cases artifact with
      | customTypes | interface =>
          rw [List.mem_singleton.mp listed]
          exact .append undivided (by decide)
      | proxy =>
          rw [List.mem_singleton.mp listed, String.append_assoc]
          exact .append base (by decide)
      | _ => cases listed

/-- The names of a unit's files are names of files. -/
theorem Program.isFileName_of_mem {program : Program} {options : Options} {unit : CompiledUnit}
    (undivided : '/' ∉ unit.name.toList) {name : String}
    (listed : name ∈ program.fileNames options unit) : Path.IsFileName name := by
  rw [fileNames] at listed
  split at listed
  · cases listed
  · split at listed
    · obtain ⟨artifact, -, isName⟩ := List.mem_flatMap.mp listed
      exact Language.isFileName_of_mem undivided isName
    · cases listed

end Placement

namespace Run

variable {α β : Type} {options : Options} {program : Program} {tree after : FileTree}

theorem bind_eq_ok {first : Run α} {second : α → Run β} {value : β} :
    (first >>= second) tree = .ok value after ↔
      ∃ middle state, first tree = .ok middle state ∧ second middle state = .ok value after := by
  have opened : (first >>= second) tree = EStateM.bind first second tree := rfl
  rw [opened, EStateM.bind]
  cases first tree <;> simp

theorem mapM_eq_ok {items : List α} {step : α → Run β} {answer : α → β} {values : List β}
    (each : ∀ item tree after value, step item tree = .ok value after → value = answer item)
    (run : items.mapM step tree = .ok values after) : values = items.map answer := by
  induction items generalizing tree values with
  | nil =>
      cases run
      rfl
  | cons item rest ih =>
      rw [List.mapM_cons] at run
      obtain ⟨value, state, isValue, others⟩ := bind_eq_ok.mp run
      obtain ⟨more, last, isMore, finished⟩ := bind_eq_ok.mp others
      cases finished
      rw [each item _ _ value isValue, ih isMore, List.map_cons]

/-- The path of a file of a unit. -/
def pathOf (outDir : Path) (unit : CompiledUnit) (name : String) : Path :=
  (outDir.join (Package.path unit.package)).join ⟨name⟩

theorem writeFiles_eq_ok {directory : Path} {files : List GeneratedFile} {written : List Path}
    (run : writeFiles directory files tree = .ok written after) :
    written = files.map fun file => directory.join ⟨file.name⟩ := by
  obtain ⟨-, made, -, writing⟩ := bind_eq_ok.mp run
  apply mapM_eq_ok _ writing
  intro file tree after path here
  obtain ⟨-, changed, -, answer⟩ := bind_eq_ok.mp here
  cases answer
  rfl

/-- What a unit writes is named by the table. -/
theorem generateUnit_eq_ok {outDir : Path} {unit : CompiledUnit} {written : List Path}
    (run : generateUnit options program outDir unit tree = .ok written after) :
    written = (program.fileNames options unit).map (pathOf outDir unit) := by
  obtain ⟨files, state, isFiles, rest⟩ := bind_eq_ok.mp run
  have names : files.map GeneratedFile.name = program.fileNames options unit := by
    have rendering := (inspect_eq_ok.mp isFiles).1
    rw [renderUnit] at rendering
    split at rendering
    · cases rendering
    · rename_i language selected
      split at rendering
      · rename_i rendered
        cases rendering
        exact Program.map_name_of_render selected rendered
      · cases rendering
  rw [← names, List.map_map]
  split at rest
  · rename_i isEmpty
    cases rest
    rw [List.isEmpty_iff.mp isEmpty]
    rfl
  · exact writeFiles_eq_ok rest

theorem generate_eq_ok {written : List Path}
    (run : generate options program tree = .ok written after) :
    ∃ outDir, written = program.units.toList.flatMap fun unit =>
      (program.fileNames options unit).map (pathOf outDir unit) := by
  cases output : options.outDir with
  | none =>
      simp only [generate, output] at run
      cases run
  | some outDir =>
      simp only [generate, output] at run
      obtain ⟨lists, state, isLists, answer⟩ := bind_eq_ok.mp run
      cases answer
      have each : lists = program.units.toList.map fun unit =>
          (program.fileNames options unit).map (pathOf outDir unit) :=
        mapM_eq_ok (fun _ _ _ _ => generateUnit_eq_ok) isLists
      exact ⟨outDir, by rw [each, List.flatMap_def]⟩

/-- Files of different names, or of different packages, have different paths. -/
theorem components_pathOf_inj {outDir : Path} {first second : CompiledUnit} {file other : String}
    (ofFirst : first.Placed) (ofSecond : second.Placed) (isFile : Path.IsFileName file)
    (isOther : Path.IsFileName other) :
    (pathOf outDir first file).components = (pathOf outDir second other).components ↔
      first.package = second.package ∧ file = other := by
  have areNames {unit : CompiledUnit} (placed : unit.Placed) :
      ∀ name ∈ Package.segments unit.package, Path.IsFileName name := by
    intro name listed
    obtain ⟨piece, isPiece, rfl⟩ := List.mem_map.mp listed
    exact Path.isFileName_of_isWord (placed.dotted piece (List.mem_filter.mp isPiece).1)
  rw [pathOf, pathOf, Package.path, Package.path,
    Path.components_ofNames_join (areNames ofFirst) isFile,
    Path.components_ofNames_join (areNames ofSecond) isOther, List.append_cancel_left_eq]
  constructor
  · intro same
    have names := List.map_injective_iff.mpr (fun _ _ => Path.Component.normal.inj) same
    obtain ⟨segments, sameFile⟩ := List.append_inj' names rfl
    refine ⟨?_, List.singleton_inj.mp sameFile⟩
    rw [← Package.intercalate_segments ofFirst.dotted, segments,
      Package.intercalate_segments ofSecond.dotted]
  · rintro ⟨samePackage, rfl⟩
    rw [samePackage]

/-- Two files of a run are written to one path exactly if two units of one package have files of one
name. -/
theorem generated_paths_nodup_iff {written : List Path} (accepted : program.AcceptedUnder options)
    (run : generate options program tree = .ok written after) :
    (written.map Path.components).Nodup ↔
      program.units.toList.Pairwise fun first second => first.package = second.package →
        List.Disjoint (program.fileNames options first) (program.fileNames options second) := by
  obtain ⟨outDir, isWritten⟩ := generate_eq_ok run
  have placed {unit : CompiledUnit} (listed : unit ∈ program.units.toList) {name : String}
      (named : name ∈ program.fileNames options unit) : unit.Placed ∧ Path.IsFileName name := by
    have notSequenceable : unit.kind ≠ .sequenceable := by
      intro isSequenceable
      rw [Program.fileNames, isSequenceable] at named
      split at named
      · cases named
      · split at named <;> cases named
    have here := accepted.reachable.placed (by simpa using listed) notSequenceable
    exact ⟨here, Program.isFileName_of_mem here.undivided named⟩
  have same {first second : CompiledUnit} (ofFirst : first ∈ program.units.toList)
      (ofSecond : second ∈ program.units.toList) {file other : String}
      (isFile : file ∈ program.fileNames options first)
      (isOther : other ∈ program.fileNames options second) :
      (pathOf outDir first file).components = (pathOf outDir second other).components ↔
        first.package = second.package ∧ file = other :=
    components_pathOf_inj (placed ofFirst isFile).1 (placed ofSecond isOther).1
      (placed ofFirst isFile).2 (placed ofSecond isOther).2
  simp only [isWritten, List.map_flatMap, List.map_map, List.nodup_flatMap]
  have each : ∀ unit ∈ program.units.toList,
      ((program.fileNames options unit).map (Path.components ∘ pathOf outDir unit)).Nodup :=
    fun unit listed => (program.nodup_fileNames options unit).map_on
      fun _ isFile _ isOther equal => ((same listed listed isFile isOther).mp equal).2
  rw [and_iff_right each]
  apply List.Pairwise.iff_of_mem
  intro first second ofFirst ofSecond
  simp only [Function.onFun, List.disjoint_left, List.mem_map, Function.comp_apply]
  constructor
  · intro apart samePackage file isFile isOther
    exact apart ⟨file, isFile, rfl⟩
      ⟨file, isOther, (same ofSecond ofFirst isOther isFile).mpr ⟨samePackage.symm, rfl⟩⟩
  · rintro apart steps ⟨file, isFile, rfl⟩ ⟨other, isOther, equal⟩
    obtain ⟨samePackage, rfl⟩ := (same ofSecond ofFirst isOther isFile).mp equal
    exact apart samePackage.symm isFile isOther

/-- What comes of a second file behind `FooBar.idl` of the same package. -/
def neighbourOutcome (name : String) : ParseOutcome :=
  (({} : Program).parseSource pairOptions [] (pairPath "FooBar") structSource).program.parseSource
    pairOptions [] (pairPath name) structSource

/-- The paths that a run has written, if it has not failed. -/
def paths? : EStateM.Result Failure FileTree (List Path) → Option (List Path)
  | .ok written _ => some written
  | .error _ _ => none

theorem exists_of_paths? {result : EStateM.Result Failure FileTree (List Path)}
    {written : List Path} (isWritten : paths? result = some written) : ∃ after, result = .ok written after := by
  cases result with
  | ok paths after => exact ⟨after, by rw [Option.some.inj isWritten]⟩
  | error failure after => cases isWritten

/-- Both second files are accepted, and what is written: `foo_bar` has the files of `FooBar`. -/
theorem neighbourOutcome_spec :
    (({} : Program).parseSource pairOptions [] (pairPath "FooBar") structSource).accepted = true ∧
      (∀ name ∈ ["foo_bar", "FooBaz"], (neighbourOutcome name).accepted = true) ∧
      (neighbourOutcome "FooBaz").program.units.toList.Pairwise (fun first second =>
        ∀ name ∈ (neighbourOutcome "FooBaz").program.fileNames pairOptions first,
          name ∉ (neighbourOutcome "FooBaz").program.fileNames pairOptions second) ∧
      paths? (generate pairOptions (neighbourOutcome "foo_bar").program {}) =
        some [⟨"out/a/v1_0/foo_bar.h"⟩, ⟨"out/a/v1_0/foo_bar.c"⟩, ⟨"out/a/v1_0/foo_bar.h"⟩,
          ⟨"out/a/v1_0/foo_bar.c"⟩] ∧
      paths? (generate pairOptions (neighbourOutcome "FooBaz").program {}) =
        some [⟨"out/a/v1_0/foo_bar.h"⟩, ⟨"out/a/v1_0/foo_bar.c"⟩, ⟨"out/a/v1_0/foo_baz.h"⟩,
          ⟨"out/a/v1_0/foo_baz.c"⟩] := by
  decide +kernel

theorem acceptedUnder_neighbour {name : String} (isName : name ∈ ["foo_bar", "FooBaz"]) :
    (neighbourOutcome name).program.AcceptedUnder pairOptions := by
  obtain ⟨first, second, -⟩ := neighbourOutcome_spec
  exact .parse [] _ _ (.parse [] _ _ .empty first) (second name isName)

theorem neighbour_paths_nodup : ∃ written after,
    generate pairOptions (neighbourOutcome "FooBaz").program {} = .ok written after ∧
      (written.map Path.components).Nodup := by
  obtain ⟨after, run⟩ := exists_of_paths? neighbourOutcome_spec.2.2.2.2
  refine ⟨_, after, run, ?_⟩
  rw [generated_paths_nodup_iff (acceptedUnder_neighbour (by simp)) run]
  apply neighbourOutcome_spec.2.2.1.imp
  exact fun apart _ name isFirst isSecond => apart name isFirst isSecond

/-- The types of one unit are written over those of another. -/
theorem accepted_units_share_paths : ∃ program written after,
    program.AcceptedUnder pairOptions ∧ generate pairOptions program {} = .ok written after ∧
      ¬written.Nodup := by
  obtain ⟨after, run⟩ := exists_of_paths? neighbourOutcome_spec.2.2.2.1
  exact ⟨_, _, after, acceptedUnder_neighbour (by simp), run, by decide⟩

end Run

end DriverIdl
