import DriverIdl.Proofs.Emit.Definitions
import DriverIdl.Proofs.Emit.Placement

/-!
# What the frames of headers define

Around its declarations a header has guards, includes and namespaces, and none of these defines a
type.  They are spelled with the names of files and packages.  A name of a file may hold anything but a
path separator, line breaks included, so this needs names without line breaks.
-/

namespace DriverIdl

open CodeLexeme

section OneLine

/-- The name of the file that declares a type, which Java puts in front of it. -/
def TypeNode.outer? : TypeNode → Option String
  | .enum declared => some declared.unit
  | .struct record | .union record => some record.unit
  | _ => none

/-- No file of the program has a line break in its name. -/
structure Program.NamedOnOneLine (program : Program) : Prop where
  units : ∀ unit ∈ program.units, '\n' ∉ unit.name.toList
  types : ∀ id, ∀ name ∈ (program.types.node id).outer?, '\n' ∉ name.toList

/-- Only the types of the arena have to be looked at. -/
theorem Program.NamedOnOneLine.of_nodes {program : Program}
    (units : ∀ unit ∈ program.units, '\n' ∉ unit.name.toList)
    (nodes : ∀ node ∈ program.types.nodes.toList, ∀ name ∈ node.outer?, '\n' ∉ name.toList) :
    program.NamedOnOneLine := by
  refine ⟨units, fun id => ?_⟩
  rcases Nat.lt_or_ge id program.types.size with inside | outside
  · exact nodes _ (Array.mem_toList_iff.mpr
      (Array.mem_of_getElem? (TypeArena.getElem?_of_lt_size inside)))
  · rw [TypeArena.node_of_size_le outside]
    exact fun name listed => by cases listed

/-- A unit whose name and package hold no line break. -/
def CompiledUnit.OneLine (unit : CompiledUnit) : Prop :=
  '\n' ∉ unit.name.toList ∧ '\n' ∉ unit.package.toList

theorem NamespaceTree.Spelled.oneLine {tree : NamespaceTree} (spelled : tree.Spelled)
    (id : NamespaceId) : '\n' ∉ (tree.fullName id).toList := by
  intro inside
  rcases mem_of_mem_intercalate inside with between | ⟨segment, listed, within⟩
  · exact absurd between (by decide)
  · exact absurd (spelled.onlyWord listed _ within) (by decide)

theorem Program.NamedOnOneLine.unit {program : Program} (oneLine : program.NamedOnOneLine)
    (reachable : program.Reachable) {unit : CompiledUnit} (listed : unit ∈ program.units) :
    unit.OneLine := by
  refine ⟨oneLine.units unit listed, ?_⟩
  rw [← (reachable.wellFormed.units unit listed).package_name]
  exact reachable.spelled.namespaces.oneLine unit.namespaceId

theorem EmitContext.mem_units_of_mem_allImports {context : EmitContext} {unit : CompiledUnit}
    (listed : unit ∈ context.allImports) : unit ∈ context.program.units := by
  obtain ⟨entry, -, present⟩ := List.mem_filterMap.mp listed
  exact Array.mem_of_getElem? present

theorem Text.oneLine_snakeCase {text : String} (oneLine : '\n' ∉ text.toList) :
    '\n' ∉ (snakeCase text).toList := by
  rw [snakeCase, String.toList_ofList]
  exact fun inside => oneLine (sign_of_mem_snakeFrom (by decide) inside)

theorem Text.oneLine_lowercase {text : String} (oneLine : '\n' ∉ text.toList) :
    '\n' ∉ (lowercase text).toList := by
  rw [lowercase, String.toList_ofList]
  exact fun inside => oneLine (sign_of_mem_lowerFrom (by decide) inside)

theorem Text.oneLine_replaceChar {text : String} {pattern replacement : Char}
    (stays : replacement ≠ '\n') (oneLine : '\n' ∉ text.toList) :
    '\n' ∉ (replaceChar pattern replacement text).toList := by
  rw [replaceChar, String.toList_ofList]
  intro inside
  obtain ⟨character, listed, replaced⟩ := List.mem_map.mp inside
  split at replaced
  · exact stays replaced
  · exact oneLine (replaced ▸ listed)

theorem oneLine_guardMacro {package file : String} (isPackage : '\n' ∉ package.toList)
    (isFile : '\n' ∉ file.toList) : '\n' ∉ (guardMacro package file).toList := by
  have upper {text : String} (oneLine : '\n' ∉ text.toList) :
      '\n' ∉ (Text.uppercase (Text.replaceChar '.' '_' text)).toList :=
    fun inside => Text.oneLine_replaceChar (by decide) oneLine
      (Text.sign_of_mem_uppercase (by decide) inside)
  simp [guardMacro, upper isPackage, upper isFile]

end OneLine

section Frames

variable {language : Language} {context : EmitContext} {file : String} {includes : List String}
  {preamble body : Code}

theorem definedOn_directive {directive text : String} {rest : List Char}
    (isDirective : directive ∈ ["#ifndef", "#define", "#endif"]) (oneLine : '\n' ∉ text.toList)
    (spelled : text.toList = directive.toList ++ ' ' :: rest) : language.definedOn text = [] := by
  have isRun : IsRun directive := by
    clear spelled
    revert directive
    decide
  apply definedOn_of_first isRun (by decide) oneLine spelled
  clear spelled
  revert directive
  cases language <;> decide

theorem definedIn_includeGuard {guard : String} (oneLine : '\n' ∉ guard.toList) :
    language.definedIn (Code.includeGuard guard) = [] := by
  rw [Code.includeGuard, Language.definedIn_append, Language.definedIn_blank, List.append_nil]
  refine Language.definedIn_lines fun text listed => ?_
  rcases List.mem_pair.mp listed with rfl | rfl
  · exact definedOn_directive (by decide : "#ifndef" ∈ _) (by simp [toString, oneLine])
      (by simp [toString]; rfl)
  · exact definedOn_directive (by decide : "#define" ∈ _) (by simp [toString, oneLine])
      (by simp [toString]; rfl)

theorem definedOn_includeLine (oneLine : '\n' ∉ file.toList) :
    language.definedOn (Code.includeLine file) = [] := by
  refine (Unopened.of_append ?_ (by decide)).definedOn
  simp [toString, oneLine]

theorem definedOn_systemIncludes {files : List String} (oneLine : ∀ file ∈ files, '\n' ∉ file.toList) :
    ∀ text ∈ Code.systemIncludes files, language.definedOn text = [] := by
  intro text listed
  obtain ⟨file, isFile, rfl⟩ := List.mem_map.mp listed
  refine (Unopened.of_append ?_ (by decide)).definedOn
  simp [toString, oneLine file isFile]

/-- What a C header defines, part by part. -/
theorem CCode.definedNames_header :
    (header context file includes body).definedNames .c context.unit =
      Language.c.definedIn (Code.includeGuard (guardMacro context.unit.package file)) ++
        (Language.c.definedIn (Code.lines includes) ++ (Language.c.definedIn body ++
          Language.c.definedOn s!"#endif /* {guardMacro context.unit.package file} */")) := by
  have linkage : Language.c.definedIn (Code.lines beginLinkage) = [] ∧
      Language.c.definedIn (Code.lines endLinkage) = [] := by decide +kernel
  simp only [header, List.append_assoc, GeneratedFile.definedNames_ofCode, Language.definedIn_append,
    Language.definedIn_blank, Language.definedIn_line, linkage, List.nil_append]

theorem CCode.definedNames_header_of_oneLine (unit : context.unit.OneLine) (isFile : '\n' ∉ file.toList)
    (quiet : ∀ text ∈ includes, Language.c.definedOn text = []) :
    (header context file includes body).definedNames .c context.unit = Language.c.definedIn body := by
  have guard := oneLine_guardMacro unit.2 isFile
  have ending : Unopened s!"#endif /* {guardMacro context.unit.package file} */" := by
    refine .of_append ?_ (by decide)
    simp [toString, guard]
  rw [definedNames_header, definedIn_includeGuard guard, Language.definedIn_lines quiet,
    ending.definedOn, List.append_nil, List.nil_append, List.nil_append]

theorem CCode.oneLine_headerFile {unit : CompiledUnit} (oneLine : unit.OneLine) :
    '\n' ∉ (headerFile unit).toList := by
  simp [headerFile, Text.oneLine_snakeCase oneLine.1]

theorem CCode.definedOn_includeOf {imported : CompiledUnit} (oneLine : imported.OneLine) :
    language.definedOn (includeOf context imported) = [] := by
  have isFile := oneLine_headerFile oneLine
  have isPackage := @Text.oneLine_replaceChar _ '.' '/' (by decide) oneLine.2
  rw [includeOf]
  split
  · exact definedOn_includeLine isFile
  · exact definedOn_includeLine (by simp [isPackage, isFile])

/-- What a C++ header defines, part by part. -/
theorem CppCode.definedNames_header :
    (header context file preamble body).definedNames .cpp context.unit =
      Language.cpp.definedIn (Code.includeGuard (guardMacro context.unit.package file)) ++
        (Language.cpp.definedIn preamble ++ (Language.cpp.definedIn (inNamespaces context body) ++
          Language.cpp.definedOn s!"#endif // {guardMacro context.unit.package file}")) := by
  simp only [header, List.append_assoc, GeneratedFile.definedNames_ofCode, Language.definedIn_append,
    Language.definedIn_blank, Language.definedIn_line, List.nil_append]

theorem CppCode.definedIn_inNamespaces (spelled : context.program.Spelled) :
    Language.cpp.definedIn (inNamespaces context body) = Language.cpp.definedIn body := by
  have onlyWord : ∀ name ∈ namespaces context context.unit.namespaceId, Text.OnlyWord name.toList := by
    intro name listed
    obtain ⟨segment, isSegment, rfl⟩ := List.mem_map.mp listed
    exact onlyWord_namespaceSegment (spelled.namespaces.onlyWord isSegment)
  have absent {name : String} (listed : name ∈ namespaces context context.unit.namespaceId)
      {character : Char} (foreign : isWordChar character = false) : character ∉ name.toList := by
    intro inside
    rw [onlyWord name listed character inside] at foreign
    cases foreign
  have opening : Language.cpp.definedIn (Code.lines
      ((namespaces context context.unit.namespaceId).map fun name => s!"namespace {name} \x7b")) = [] := by
    refine Language.definedIn_lines fun text listed => ?_
    obtain ⟨name, isName, rfl⟩ := List.mem_map.mp listed
    apply definedOn_of_first (by decide : IsRun "namespace") (by decide : separates ' ' = true)
    · simp [toString, absent isName (by decide : isWordChar '\n' = false)]
    · simp [toString]
      rfl
    · decide
  have closing : Language.cpp.definedIn (Code.lines
      ((namespaces context context.unit.namespaceId).reverse.map fun name => s!"\x7d // {name}")) = [] := by
    refine Language.definedIn_lines fun text listed => ?_
    obtain ⟨name, isName, rfl⟩ := List.mem_map.mp listed
    have isName := List.mem_reverse.mp isName
    refine Unopened.definedOn ⟨?_, fun last => absurd (List.mem_of_getLast? last) ?_⟩
    · simp [toString, absent isName (by decide : isWordChar '\n' = false)]
    · simp [toString, absent isName (by decide : isWordChar '\x7b' = false)]
  simp only [inNamespaces, Language.definedIn_append, opening, closing, Language.definedIn_blank,
    List.nil_append, List.append_nil]

theorem CppCode.definedNames_header_of_oneLine (spelled : context.program.Spelled)
    (unit : context.unit.OneLine) (isFile : '\n' ∉ file.toList)
    (quiet : Language.cpp.definedIn preamble = []) :
    (header context file preamble body).definedNames .cpp context.unit =
      Language.cpp.definedIn body := by
  have guard := oneLine_guardMacro unit.2 isFile
  have ending : Language.cpp.definedOn s!"#endif // {guardMacro context.unit.package file}" = [] :=
    definedOn_directive (by decide : "#endif" ∈ _) (by simp [toString, guard])
      (by simp [toString]; rfl)
  rw [definedNames_header, definedIn_includeGuard guard, quiet, definedIn_inNamespaces spelled,
    ending, List.append_nil, List.nil_append, List.nil_append]

theorem CppCode.oneLine_headerFile {unit : CompiledUnit} (oneLine : unit.OneLine) :
    '\n' ∉ (headerFile unit).toList := by
  simp [headerFile, Text.oneLine_lowercase oneLine.1]

theorem CppCode.definedOn_includeOf {imported : CompiledUnit} (oneLine : imported.OneLine) :
    language.definedOn (includeOf context imported) = [] := by
  have isFile := oneLine_headerFile oneLine
  have isPackage := @Text.oneLine_replaceChar _ '.' '/' (by decide) oneLine.2
  rw [includeOf]
  split
  · exact definedOn_includeLine (by simp [Text.oneLine_snakeCase oneLine.1])
  · split
    · exact definedOn_includeLine isFile
    · exact definedOn_includeLine (by simp [isPackage, isFile])

end Frames

end DriverIdl
