import DriverIdl.Emit.Render
import DriverIdl.Proofs.Emit.Expressible
import DriverIdl.Proofs.Emit.Placement
import DriverIdl.Proofs.Interface.Contract
import DriverIdl.Proofs.Text.Conventions

/-!
# Names of methods in generated code

Methods have names of their own in the source.  Generated code spells them in other conventions,
which lose the case and the underscores of a name, and nothing compares the results.  So the
constants of the commands are distinct exactly if no two methods are named with the same words, and
the methods of a Java interface exactly if no two of their names have the same characters and
capitals.
-/

namespace DriverIdl

section Files

variable {context : EmitContext}

/-- The line that declares a command, with its number. -/
def commandLine (context : EmitContext) (language : Language) (command : Nat × Method) : String :=
  match language with
  | .c | .cpp => s!"{context.commandName command.2} = {command.1},"
  | .java => s!"int {context.commandName command.2} = {command.1};"

/-- A file that declares the commands of an interface, and in Java its methods. -/
structure DeclaresMethods (context : EmitContext) (language : Language)
    (methods : List (Nat × Method)) (file : GeneratedFile) : Prop where
  commands : HasLines file.contents (methods.map (commandLine context language))
  methods : language = .java → ∀ command ∈ methods, ∃ parameters : String,
    HasLines file.contents
      [s!"int {Text.lowerCamel command.2.name}({parameters}) throws RemoteException;"]

variable {methods : List (Nat × Method)}

theorem commandLine_ne_empty (context : EmitContext) (language : Language)
    (command : Nat × Method) : commandLine context language command ≠ "" := by
  cases language <;> simp [commandLine, toString]

theorem hasLines_commands {language : Language} {file : GeneratedFile} (some : methods ≠ [])
    (inside : file.Contains (Code.lines (methods.map (commandLine context language)))) :
    HasLines file.contents (methods.map (commandLine context language)) := by
  refine inside.hasLines (by simpa using some) fun listed => ?_
  obtain ⟨command, -, empty⟩ := List.mem_map.mp listed
  exact commandLine_ne_empty context language command empty

variable {files : List GeneratedFile}

theorem CCode.declaresMethods (some : methods ≠ []) (shown : context.methods = .ok methods)
    (rendered : CCode.interfaceHeader context = .ok files) :
    ∃ file ∈ files, DeclaresMethods context .c methods file := by
  unfold CCode.interfaceHeader at rendered
  obtain ⟨_, isMethods, rendered⟩ := Emit.bind_eq_ok.mp rendered
  cases shown.symm.trans isMethods
  obtain ⟨slots, -, rendered⟩ := Emit.bind_eq_ok.mp rendered
  cases rendered
  refine ⟨_, List.mem_singleton_self _, hasLines_commands some ?_, by simp⟩
  apply (CCode.contains_header _ _ _ _).part_of
  apply (Code.infix_bracedWith s!"enum {context.base}Cmd" _ ";").trans
  apply Code.infix_paragraphs
  iterate 3 apply List.mem_cons_of_mem
  exact List.mem_cons_self

theorem CppCode.declaresMethods (some : methods ≠ []) (shown : context.methods = .ok methods)
    (rendered : CppCode.interfaceHeader context = .ok files) :
    ∃ file ∈ files, DeclaresMethods context .cpp methods file := by
  unfold CppCode.interfaceHeader at rendered
  obtain ⟨_, isMethods, rendered⟩ := Emit.bind_eq_ok.mp rendered
  cases shown.symm.trans isMethods
  cases rendered
  refine ⟨_, List.mem_singleton_self _, hasLines_commands some ?_, by simp⟩
  apply (CppCode.contains_header _ _ _ _).part_of
  apply (Code.infix_bracedWith s!"enum {context.base}Cmd" _ ";").trans
  apply Code.infix_paragraphs
  apply List.mem_cons_of_mem
  exact List.mem_cons_self

/-- In a Java interface the commands stand in front of the methods. -/
theorem JavaCode.interfaceFile_eq_ok (shown : context.methods = .ok methods)
    (rendered : JavaCode.interfaceFile context = .ok files) :
    ∃ imports head early signatures,
      files = [file context context.name imports (Code.braced head
        (early ++ Code.lines (methods.map (commandLine context .java)) ++ signatures))] ∧
      Code.forEach methods (fun command => do
        return Code.blank ++ Code.line ((← signature context command.2) ++ ";")) = .ok signatures := by
  unfold JavaCode.interfaceFile at rendered
  obtain ⟨_, isMethods, rendered⟩ := Emit.bind_eq_ok.mp rendered
  cases shown.symm.trans isMethods
  obtain ⟨signatures, isSignatures, rendered⟩ := Emit.bind_eq_ok.mp rendered
  cases rendered
  exact ⟨_, _, _, signatures, rfl, isSignatures⟩

theorem JavaCode.declaresMethods (some : methods ≠ []) (shown : context.methods = .ok methods)
    (rendered : JavaCode.interfaceFile context = .ok files) :
    ∃ file ∈ files, DeclaresMethods context .java methods file := by
  obtain ⟨imports, head, early, signatures, rfl, isSignatures⟩ := interfaceFile_eq_ok shown rendered
  have contains := (contains_file context context.name imports _).part_of
    (Code.infix_bracedWith head
      (early ++ Code.lines (methods.map (commandLine context .java)) ++ signatures) "")
  refine ⟨_, List.mem_singleton_self _,
    hasLines_commands some (contains.part_of (List.infix_append _ _ _)), ?_⟩
  intro _ command listed
  obtain ⟨piece, isPiece, inside⟩ := Code.infix_forEach isSignatures listed
  obtain ⟨text, isText, isPiece⟩ := Emit.bind_eq_ok.mp isPiece
  cases isPiece
  obtain ⟨declarators, -, isText⟩ := Emit.bind_eq_ok.mp isText
  cases isText
  let parameters := String.intercalate ", " declarators
  have line : GeneratedFile.Contains _
      (Code.line (s!"int {Text.lowerCamel command.2.name}({parameters}) throws RemoteException" ++ ";")) :=
    (contains.part_of (List.suffix_append _ signatures).isInfix).part_of
      ((List.suffix_append Code.blank _).isInfix.trans inside)
  have spelled :
      s!"int {Text.lowerCamel command.2.name}({parameters}) throws RemoteException" ++ ";" =
        s!"int {Text.lowerCamel command.2.name}({parameters}) throws RemoteException;" := by
    apply String.toList_injective
    simp [toString]
  rw [spelled] at line
  exact ⟨parameters, line.hasLines (by simp) (by simp [toString])⟩

/-- The file of an interface declares its commands, in each language. -/
theorem declaresMethods {language : Language} (some : methods ≠ [])
    (shown : context.methods = .ok methods)
    (rendered : Artifact.render context language .interface = .ok files) :
    ∃ file ∈ files, DeclaresMethods context language methods file := by
  cases language with
  | c => exact CCode.declaresMethods some shown rendered
  | cpp => exact CppCode.declaresMethods some shown rendered
  | java => exact JavaCode.declaresMethods some shown rendered

end Files

section Names

variable {context : EmitContext} {methods : List (Nat × Method)}

/-- The methods of a build belong to an interface of the program. -/
theorem EmitContext.exists_of_methods (shown : context.methods = .ok methods) :
    ∃ id declared, context.types.node id = .interface declared ∧ context.interface = .ok declared ∧
      ∀ command ∈ methods, command.2 ∈ declared.methods := by
  obtain ⟨declared, found, listed⟩ := interfaceOf?_of_methods shown
  obtain ⟨id, -, isTarget⟩ := Option.bind_eq_some_iff.mp found
  refine ⟨id, declared, Program.node_of_interface? isTarget, by rw [EmitContext.interface, found]; rfl,
    fun command inside => listed _ (List.mem_map_of_mem inside)⟩

/-- The names of methods are words. -/
theorem Program.Reachable.isWord_method {program : Program} (reachable : program.Reachable)
    {id : TypeId} {declared : InterfaceType} (isInterface : program.types.node id = .interface declared)
    {method : Method} (listed : method ∈ declared.methods) : Text.IsWord method.name := by
  obtain ⟨earlier, options, diagnostics, path, source, -, spelled⟩ :=
    reachable.spelledMethods isInterface
  rcases spelled.user_or_version listed with isUser | rfl
  · exact (spelled.proper method isUser).named
  · exact @Parse.isWord_of_mem_version declared.place _ List.mem_cons_self

/-- The constants of two commands are the same exactly if the methods are. -/
theorem EmitContext.commandName_inj {first second : Method} :
    context.commandName first = context.commandName second ↔
      Text.upperSnake first.name = Text.upperSnake second.name := by
  simp [EmitContext.commandName, ← String.toList_inj]

/-- The constants of the commands of a build are distinct exactly if no two methods are named with
the same words, and the methods of a Java interface exactly if no two names agree in their characters
and capitals.  The version query is among the methods, and each language declares all of them under
these names. -/
theorem Program.shown_names_nodup_iff (reachable : context.program.Reachable)
    (shown : context.methods = .ok methods) :
    ((methods.map fun command => context.commandName command.2).Nodup ↔
        methods.Pairwise fun first second => ¬Text.SameWords first.2.name second.2.name) ∧
      ((methods.map fun command => Text.lowerCamel command.2.name).Nodup ↔
        methods.Pairwise fun first second => ¬Text.SameCapitals first.2.name second.2.name) ∧
      "GetVersion" ∈ methods.map (fun command => command.2.name) ∧
      ∀ language files, Artifact.render context language .interface = .ok files →
        ∃ file ∈ files, DeclaresMethods context language methods file := by
  obtain ⟨id, declared, isInterface, isDeclared, listed⟩ := context.exists_of_methods shown
  have isWord (command) (inside : command ∈ methods) : Text.OnlyWord command.2.name.toList :=
    (reachable.isWord_method isInterface (listed command inside)).2
  have version : "GetVersion" ∈ methods.map (fun command => command.2.name) := by
    obtain ⟨earlier, options, diagnostics, path, source, -, spelled⟩ :=
      reachable.spelledMethods isInterface
    have numbering := InterfaceType.sharesNumbering spelled.methods_eq
      (Method.isVersionQuery_version reachable.wellFormed.types declared.place)
    obtain ⟨all, isAll, -, shows⟩ := numbering.shown context isDeclared
    cases shown.symm.trans isAll
    obtain ⟨command, inside, labelled⟩ := List.mem_map.mp shows
    exact List.mem_map.mpr ⟨command, inside, congrArg Prod.snd labelled⟩
  refine ⟨?_, ?_, version, ?_⟩
  · rw [List.nodup_iff_pairwise_ne, List.pairwise_map]
    refine List.Pairwise.iff_of_mem fun isFirst isSecond => not_congr ?_
    exact EmitContext.commandName_inj.trans (Text.upperSnake_eq_iff (isWord _ isFirst) (isWord _ isSecond))
  · rw [List.nodup_iff_pairwise_ne, List.pairwise_map]
    refine List.Pairwise.iff_of_mem fun isFirst isSecond => not_congr ?_
    exact Text.lowerCamel_eq_iff (isWord _ isFirst) (isWord _ isSecond)
  · intro language files rendered
    refine declaresMethods ?_ shown rendered
    rintro rfl
    cases version

/-- A file with an interface of two methods. -/
def twinSource (first second : String) : String :=
  "package a.v1_0; interface IFoo \x7b " ++ first ++ "([in] int x); " ++ second ++ "([in] int x); \x7d"

/-- What comes of the file for a target language. -/
def twinOutcome (language : Language) (first second : String) : ParseOutcome :=
  ({} : Program).parseSource { language := some language } [] ⟨"a/v1_0/IFoo.idl"⟩ (twinSource first second)

/-- The rendering of the unit in the file. -/
def twinContext (language : Language) (first second : String) : EmitContext :=
  let program := (twinOutcome language first second).program
  { options := { language := some language }, program, unit := program.units.toList.headD default }

/-- The names of the methods of a build: in the source, and those of commands and Java methods. -/
def namesOf (context : EmitContext) (methods : List (Nat × Method)) : List (String × String × String) :=
  methods.map fun command =>
    (command.2.name, context.commandName command.2, Text.lowerCamel command.2.name)

theorem twinContext_names :
    (twinContext .java "a_1" "a1").methods.toOption.map (namesOf (twinContext .java "a_1" "a1")) =
        some [("a_1", "CMD_FOO_A_1", "a1"), ("a1", "CMD_FOO_A1", "a1"),
          ("GetVersion", "CMD_FOO_GET_VERSION", "getVersion")] ∧
      ∀ language ∈ [Language.c, .cpp, .java],
        (twinOutcome language "GetFoo" "Get_Foo").accepted = true ∧
          (twinContext language "GetFoo" "Get_Foo").methods.toOption.map
              (namesOf (twinContext language "GetFoo" "Get_Foo")) =
            some [("GetFoo", "CMD_FOO_GET_FOO", "getFoo"), ("Get_Foo", "CMD_FOO_GET_FOO", "getFoo"),
              ("GetVersion", "CMD_FOO_GET_VERSION", "getVersion")] := by
  decide +kernel

theorem exists_of_names {context : EmitContext} {names : List (String × String × String)}
    (known : context.methods.toOption.map (namesOf context) = some names) :
    ∃ methods, context.methods = .ok methods ∧ namesOf context methods = names := by
  cases shown : context.methods with
  | error fault => simp [shown, Except.toOption] at known
  | ok methods =>
      rw [shown] at known
      exact ⟨methods, rfl, Option.some.inj known⟩

/-- The constants differ where the names in Java are the same. -/
theorem shown_names_nodup_iff_digits :
    (twinContext .java "a_1" "a1").program.Reachable ∧
      ∃ methods, (twinContext .java "a_1" "a1").methods = .ok methods ∧
        (methods.map fun command => (twinContext .java "a_1" "a1").commandName command.2).Nodup ∧
        ¬(methods.map fun command => Text.lowerCamel command.2.name).Nodup := by
  have reachable : (twinContext .java "a_1" "a1").program.Reachable := .parse _ _ _ _ .empty
  obtain ⟨methods, shown, names⟩ := exists_of_names twinContext_names.1
  obtain ⟨commands, inJava, -⟩ := Program.shown_names_nodup_iff reachable shown
  have apart (relation : String → String → Prop) :
      methods.Pairwise (fun first second => ¬relation first.2.name second.2.name) ↔
        ["a_1", "a1", "GetVersion"].Pairwise fun first second => ¬relation first second := by
    have same : methods.map (fun command => command.2.name) = ["a_1", "a1", "GetVersion"] := by
      simpa [namesOf, Function.comp_def] using congrArg (List.map Prod.fst) names
    rw [← same, List.pairwise_map]
  refine ⟨reachable, methods, shown, commands.mpr ((apart _).mpr (by decide)), ?_⟩
  rw [inJava, apart]
  decide

/-- Two methods of an accepted interface share the constant of their command and their name in
Java, whatever the target language. -/
theorem accepted_methods_share_names :
    [Language.c, .cpp, .java].Forall fun language =>
      (twinOutcome language "GetFoo" "Get_Foo").accepted = true ∧
        ∃ methods, (twinContext language "GetFoo" "Get_Foo").methods = .ok methods ∧
          (methods.map fun command => command.2.name).Nodup ∧
          ¬(methods.map fun command =>
            (twinContext language "GetFoo" "Get_Foo").commandName command.2).Nodup ∧
          ¬(methods.map fun command => Text.lowerCamel command.2.name).Nodup := by
  rw [List.forall_iff_forall_mem]
  intro language listed
  obtain ⟨accepted, known⟩ := twinContext_names.2 language listed
  obtain ⟨methods, shown, names⟩ := exists_of_names known
  have inSource := congrArg (List.map Prod.fst) names
  have ofCommands := congrArg (List.map fun name => name.2.1) names
  have inJava := congrArg (List.map fun name => name.2.2) names
  simp only [namesOf, List.map_map, Function.comp_def] at inSource ofCommands inJava
  refine ⟨accepted, methods, shown, ?_, ?_, ?_⟩
  · rw [inSource]
    decide
  · rw [ofCommands]
    decide
  · rw [inJava]
    decide

end Names

end DriverIdl
