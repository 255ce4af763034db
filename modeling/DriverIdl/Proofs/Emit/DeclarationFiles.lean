import DriverIdl.Proofs.Emit.JavaDefinitions
import DriverIdl.Proofs.Program.Reachable

/-!
# What rendered units define

The declaration file of a unit is the one that other code refers to: the header in C and C++, and the
class file in Java.  That of a unit of types defines the types of the build in order and nothing else,
and that of an interface defines the interface.
-/

namespace DriverIdl

open CodeLexeme

/-- The file of a unit that other code refers to. -/
def Language.declarationFile : Language → CompiledUnit → String
  | .c, unit => CCode.headerFile unit
  | .cpp, unit => CppCode.headerFile unit
  | .java, unit => unit.name ++ ".java"

namespace EmitContext

/-- The types of the build that a language has, by their names and in order. -/
def definedTypes (context : EmitContext) (language : Language) : List String :=
  context.customTypes.filterMap language.definesAs?

/-- A file defines the types of the build. -/
structure DefinesTypes (context : EmitContext) (language : Language) (file : GeneratedFile) :
    Prop where
  name : file.name = language.declarationFile context.unit
  all : ∀ name ∈ context.definedTypes language,
    name.toList ∈ file.definedNames language context.unit
  only : context.program.NamedOnOneLine →
    file.definedNames language context.unit = (context.definedTypes language).map String.toList

variable {context : EmitContext} {files : List GeneratedFile}

theorem wordNamed (reachable : context.program.Reachable) :
    ∀ node ∈ context.customTypes, node.WordNamed := by
  intro node listed
  obtain ⟨id, -, rfl⟩ := mem_customTypes listed
  exact reachable.wordNamed id

theorem isWord_of_mem_structs (reachable : context.program.Reachable) {record : RecordType}
    (listed : record ∈ context.structs) : Text.IsWord record.name :=
  (wordNamed reachable _ (mem_structs listed)).names _ List.mem_cons_self

theorem definedIn_functionDeclarations_c (reachable : context.program.Reachable) :
    Language.c.definedIn (context.structs.flatMap CCode.functionDeclarations) = [] := by
  rw [List.flatMap_def, Language.definedIn_flatten, List.flatMap_eq_nil_iff]
  intro code listed
  obtain ⟨record, isRecord, rfl⟩ := List.mem_map.mp listed
  have isRun := (isWord_of_mem_structs reachable isRecord).isRun
  have write : Tame (CCode.marshallingSignature record.name ++ ";") := by
    simp +decide [CCode.marshallingSignature, toString, isRun]
  have read : Tame (CCode.unmarshallingSignature record.name ++ ";") := by
    simp +decide [CCode.unmarshallingSignature, toString, isRun]
  have release : Tame (CCode.releaseSignature record.name ++ ";") := by
    simp +decide [CCode.releaseSignature, toString, isRun]
  simp [CCode.functionDeclarations, Language.definedIn_paragraphs, write.unopened.definedOn,
    read.unopened.definedOn, release.unopened.definedOn]

theorem definedIn_functionDeclarations_cpp (reachable : context.program.Reachable) :
    Language.cpp.definedIn (context.structs.flatMap CppCode.functionDeclarations) = [] := by
  rw [List.flatMap_def, Language.definedIn_flatten, List.flatMap_eq_nil_iff]
  intro code listed
  obtain ⟨record, isRecord, rfl⟩ := List.mem_map.mp listed
  have isRun := (isWord_of_mem_structs reachable isRecord).isRun
  have write : Tame
      s!"bool {record.name}BlockMarshalling(OHOS::MessageParcel &data, const {record.name}& dataBlock);" := by
    simp +decide [toString, isRun]
  have read : Tame
      s!"bool {record.name}BlockUnmarshalling(OHOS::MessageParcel &data, {record.name}& dataBlock);" := by
    simp +decide [toString, isRun]
  simp [CppCode.functionDeclarations, Language.definedIn_paragraphs, write.unopened.definedOn,
    read.unopened.definedOn]

/-- The header of a unit of types defines the types. -/
theorem definesTypes_c (reachable : context.program.Reachable)
    (listed : context.unit ∈ context.program.units) (rendered : CCode.customTypes context = .ok files) :
    ∃ file ∈ files, context.DefinesTypes .c file ∧
      ∀ other ∈ files, other.name = file.name → other = file := by
  obtain ⟨definitions, areDefinitions, rendered⟩ := Emit.bind_eq_ok.mp rendered
  obtain ⟨bodies, -, rendered⟩ := Emit.bind_eq_ok.mp rendered
  cases rendered
  have spelled := reachable.spelled
  have defined : definitions.flatMap Language.c.definedIn =
      (context.definedTypes .c).map String.toList :=
    Language.definedIn_definitions areDefinitions fun node isNode code rendersTo =>
      CCode.definedIn_definition spelled.types (wordNamed reachable node isNode) rendersTo
  have body : Language.c.definedIn
      (Code.paragraphs (Code.line "struct HdfSBuf;" :: definitions) ++
        context.structs.flatMap CCode.functionDeclarations) =
          (context.definedTypes .c).map String.toList := by
    have opaqueStruct : Language.c.definedIn (Code.line "struct HdfSBuf;") = [] := by decide
    rw [Language.definedIn_append, definedIn_functionDeclarations_c reachable,
      Language.definedIn_paragraphs, List.flatMap_cons, opaqueStruct, defined, List.nil_append,
      List.append_nil]
  refine ⟨_, List.mem_cons_self, ⟨rfl, fun name isName => ?_, fun oneLine => ?_⟩, ?_⟩
  · rw [CCode.definedNames_header, body]
    have inTypes := List.mem_map_of_mem (f := String.toList) isName
    simp [inTypes]
  · have isUnit := oneLine.unit reachable listed
    rw [CCode.definedNames_header_of_oneLine isUnit (CCode.oneLine_headerFile isUnit), body]
    intro text inIncludes
    rcases List.mem_append.mp inIncludes with library | ofImport
    · exact definedOn_systemIncludes (by decide) text library
    · obtain ⟨imported, isImport, rfl⟩ := List.mem_map.mp ofImport
      have inUnits := mem_units_of_mem_allImports (List.mem_of_mem_filter isImport)
      exact CCode.definedOn_includeOf (oneLine.unit reachable inUnits)
  · intro other isOther sameName
    refine (List.mem_pair.mp isOther).resolve_right ?_
    rintro rfl
    have ending := congrArg (·.toList.getLast?) sameName
    simp [CCode.source, CCode.header, GeneratedFile.ofCode, CCode.headerFile] at ending

/-- The header of a unit of types defines the types. -/
theorem definesTypes_cpp (reachable : context.program.Reachable)
    (listed : context.unit ∈ context.program.units) :
    ∃ file ∈ CppCode.customTypes context, context.DefinesTypes .cpp file ∧
      ∀ other ∈ CppCode.customTypes context, other.name = file.name → other = file := by
  have spelled := reachable.spelled
  have defined : (context.customTypes.map (CppCode.definition context)).flatMap Language.cpp.definedIn =
      (context.definedTypes .cpp).map String.toList :=
    @Language.definedIn_definitions _ _ (fun node => .ok (CppCode.definition context node)) _
      List.mapM_pure fun node isNode code rendersTo => by
        cases rendersTo
        exact CppCode.definedIn_definition spelled (wordNamed reachable node isNode)
  have body : Language.cpp.definedIn
      (Code.paragraphs
          (Code.line "using namespace OHOS;" :: context.customTypes.map (CppCode.definition context)) ++
        context.structs.flatMap CppCode.functionDeclarations) =
          (context.definedTypes .cpp).map String.toList := by
    have opening : Language.cpp.definedIn (Code.line "using namespace OHOS;") = [] := by decide
    rw [Language.definedIn_append, definedIn_functionDeclarations_cpp reachable,
      Language.definedIn_paragraphs, List.flatMap_cons, opening, defined, List.nil_append,
      List.append_nil]
  refine ⟨_, List.mem_cons_self, ⟨rfl, fun name isName => ?_, fun oneLine => ?_⟩, ?_⟩
  · rw [CppCode.definedNames_header, CppCode.definedIn_inNamespaces spelled, body]
    have inTypes := List.mem_map_of_mem (f := String.toList) isName
    simp [inTypes]
  · have isUnit := oneLine.unit reachable listed
    rw [CppCode.definedNames_header_of_oneLine spelled isUnit (CppCode.oneLine_headerFile isUnit), body]
    refine Language.definedIn_lines fun text inIncludes => ?_
    rcases List.mem_append.mp inIncludes with library | ofImport
    · exact definedOn_systemIncludes (by decide) text library
    · obtain ⟨imported, isImport, rfl⟩ := List.mem_map.mp ofImport
      exact CppCode.definedOn_includeOf (oneLine.unit reachable (mem_units_of_mem_allImports isImport))
  · intro other isOther sameName
    refine (List.mem_pair.mp isOther).resolve_right ?_
    rintro rfl
    have ending := congrArg (·.toList.getLast?) sameName
    simp [CppCode.source, CppCode.header, GeneratedFile.ofCode, CppCode.headerFile] at ending

/-- The declaration file of a unit of types defines the types of the build, and no other file of the
unit has its name. -/
theorem definesTypes {language : Language} (reachable : context.program.Reachable)
    (listed : context.unit ∈ context.program.units)
    (rendered : Artifact.render context language .customTypes = .ok files) :
    ∃ file ∈ files, context.DefinesTypes language file ∧
      ∀ other ∈ files, other.name = file.name → other = file := by
  cases language with
  | c => exact definesTypes_c reachable listed rendered
  | cpp =>
      cases rendered
      exact definesTypes_cpp reachable listed
  | java =>
      obtain ⟨file, rfl, isName, all, only⟩ :=
        JavaCode.definedNames_customTypes (wordNamed reachable) rendered
      refine ⟨file, List.mem_singleton_self _, ⟨isName, all, fun oneLine => ?_⟩, ?_⟩
      · exact only ⟨reachable.spelled, oneLine.types⟩ (oneLine.unit reachable listed)
      · exact fun other isOther _ => List.mem_singleton.mp isOther

theorem mem_definedIn_classDefinition {name : String} {members hidden : Code}
    (isName : Text.IsWord name) :
    name.toList ∈
      Language.cpp.definedIn (CppCode.classDefinition s!"{name} : public HdiBase" members hidden) := by
  have isRun := isName.isRun
  have opening : Language.cpp.definedOn ("class " ++ s!"{name} : public HdiBase" ++ " \x7b") =
      [name.toList] := by
    refine definedOn_of_definition [['c', 'l', 'a', 's', 's']]
      [[':'], "public".toList, "HdiBase".toList] ?_ rfl ?_ ?_ (by decide)
    · simp [toString, isRun.tame.oneLine]
    · simp +decide [ofLine, toString, isRun, List.getLast?_cons]
    · simp +decide [ofLine, toString, isRun, words]
  have first : Code.line ("class " ++ s!"{name} : public HdiBase" ++ " \x7b") <:+:
      CppCode.classDefinition s!"{name} : public HdiBase" members hidden := by
    rw [CppCode.classDefinition]
    iterate 5 apply List.infix_append_of_infix_left
    exact ⟨[], Code.line "public:", rfl⟩
  apply Language.definedIn_subset first
  rw [Language.definedIn_line, opening]
  exact List.mem_singleton_self _

/-- The declaration file of an interface defines the interface. -/
theorem definesInterface {language : Language} (spelled : context.program.Spelled)
    (isName : Text.IsWord context.name)
    (rendered : Artifact.render context language .interface = .ok files) :
    ∃ file ∈ files, file.name = language.declarationFile context.unit ∧
      context.name.toList ∈ file.definedNames language context.unit := by
  cases language with
  | c =>
      obtain ⟨methods, -, rendered⟩ := Emit.bind_eq_ok.mp rendered
      obtain ⟨slots, -, rendered⟩ := Emit.bind_eq_ok.mp rendered
      cases rendered
      refine ⟨_, List.mem_singleton_self _, rfl, ?_⟩
      rw [CCode.definedNames_header]
      apply List.mem_append_right
      apply List.mem_append_right
      apply List.mem_append_left
      have inBody {first second third fourth body : Code} {others : List Code} :
          body <:+: Code.paragraphs (first :: second :: third :: fourth :: body :: others) :=
        Code.infix_paragraphs (by simp)
      apply Language.definedIn_subset inBody
      rw [Language.definedIn_bracedWith, definedOn_block (by decide : IsRun "struct") (by decide) isName
        (by simp [toString])]
      simp
  | cpp =>
      obtain ⟨methods, -, rendered⟩ := Emit.bind_eq_ok.mp rendered
      cases rendered
      refine ⟨_, List.mem_singleton_self _, rfl, ?_⟩
      rw [CppCode.definedNames_header, CppCode.definedIn_inNamespaces spelled]
      apply List.mem_append_right
      apply List.mem_append_right
      apply List.mem_append_left
      have inBody {first second third : Code} :
          third <:+: Code.paragraphs [first, second, third] := Code.infix_paragraphs (by simp)
      apply Language.definedIn_subset inBody
      exact mem_definedIn_classDefinition isName
  | java =>
      obtain ⟨methods, -, rendered⟩ := Emit.bind_eq_ok.mp rendered
      obtain ⟨signatures, -, rendered⟩ := Emit.bind_eq_ok.mp rendered
      cases rendered
      refine ⟨_, List.mem_singleton_self _, rfl, JavaCode.definedIn_subset_file ?_⟩
      rw [Code.braced, Language.definedIn_bracedWith, JavaCode.definedOn_interfaceHead isName]
      simp

end EmitContext

end DriverIdl
