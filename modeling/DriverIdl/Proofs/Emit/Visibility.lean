import DriverIdl.Proofs.Emit.DeclarationFiles
import DriverIdl.Proofs.Program.Containers
import DriverIdl.Proofs.Program.References

/-!
# Which types the code of a build defines

A build leaves out the types, interfaces and methods that are hidden from it, each by its own
attributes.  Whatever the code of a build names is declared by a unit of the program; the declaration
file of this unit, as it is rendered, defines it exactly if it is visible.  No production looks at the
attributes of a type that is referred to, so code may name a type that its build does not define.
-/

namespace DriverIdl

open Relation

namespace EmitContext

/-- The code of the unit names a type: that of a member of a struct or union that the build defines, or
of a parameter of a method of the build. -/
inductive Names (context : EmitContext) (language : Language) : TypeId → Prop where
  | member {node : TypeNode} {record : RecordType} {member : Member}
      (emitted : node ∈ context.customTypes) (defined : language.definesAs? node ≠ none)
      (isRecord : node.record? = some record) (listed : member ∈ record.members) :
      Names context language member.type
  | parameter {methods : List (Nat × Method)} {command : Nat × Method} {parameter : Parameter}
      (emitted : context.methods = .ok methods) (isMethod : command ∈ methods)
      (isParameter : parameter ∈ command.2.parameters) : Names context language parameter.type

/-- What the code of a unit names, the unit spells in its source. -/
theorem Names.spells {context : EmitContext} {language : Language} {part : TypeId}
    (names : context.Names language part) : context.unit.Spells context.program part := by
  cases names with
  | @member node record member emitted defined isRecord listed =>
      obtain ⟨id, isDefinition, rfl⟩ := mem_customTypes emitted
      exact .member isDefinition (by rwa [TypeArena.record?_eq]) listed
  | @parameter methods command parameter emitted isMethod isParameter =>
      obtain ⟨declared, found, listed⟩ := interfaceOf?_of_methods emitted
      exact .parameter found (listed _ (List.mem_map_of_mem isMethod)) isParameter

/-- The code that defines a type in a language. -/
def definition (context : EmitContext) : Language → TypeNode → Emit Code
  | .c, node => CCode.definition context.types node
  | .cpp, node => .ok (CppCode.definition context node)
  | .java, node => JavaCode.nestedClass context node

/-- The definition of a type of the build is a part of a file of the unit. -/
theorem contains_definition {context : EmitContext} {language : Language} {node : TypeNode}
    {files : List GeneratedFile} (emitted : node ∈ context.customTypes)
    (rendered : Artifact.render context language .customTypes = .ok files) :
    ∃ code, context.definition language node = .ok code ∧ ∃ file ∈ files, file.Contains code := by
  cases language with
  | c =>
      obtain ⟨definitions, areDefinitions, rendered⟩ := Emit.bind_eq_ok.mp rendered
      obtain ⟨bodies, -, rendered⟩ := Emit.bind_eq_ok.mp rendered
      cases rendered
      obtain ⟨code, isDefinition, rendersTo⟩ := Emit.exists_of_mapM areDefinitions emitted
      refine ⟨code, rendersTo, _, List.mem_cons_self, ?_⟩
      refine CCode.contains_header _ _ _ _ |>.part_of ?_
      apply List.infix_append_of_infix_left
      exact Code.infix_paragraphs (List.mem_cons_of_mem _ isDefinition)
  | cpp =>
      cases rendered
      refine ⟨_, rfl, _, List.mem_cons_self, ?_⟩
      refine CppCode.contains_header _ _ _ _ |>.part_of ?_
      apply List.infix_append_of_infix_left
      exact Code.infix_paragraphs (List.mem_cons_of_mem _ (List.mem_map_of_mem emitted))
  | java =>
      obtain ⟨classes, areClasses, rendered⟩ := Emit.bind_eq_ok.mp rendered
      cases rendered
      obtain ⟨code, rendersTo, inside⟩ := Code.infix_forEach areClasses emitted
      refine ⟨code, rendersTo, _, List.mem_singleton_self _, ?_⟩
      refine JavaCode.contains_file _ _ _ _ |>.part_of (inside.trans ?_)
      exact (List.suffix_append _ _).isInfix.trans (Code.infix_bracedWith _ _ _)

end EmitContext

namespace JavaCode

variable {context : EmitContext} {files : List GeneratedFile} {part type : TypeId}

/-- No spelling in Java leads to a union. -/
theorem typeWithin_ne_union (elementsFirst : context.types.ElementsFirst)
    {levels : Nat} {boxed : Bool} {text : String}
    (rendered : typeWithin context levels boxed part = .ok text) (enough : part < levels)
    (path : ReflTransGen context.types.HoldsElement part type) (record : RecordType) :
    context.types.node type ≠ .union record := by
  induction levels generalizing boxed part text with
  | zero => exact absurd enough (Nat.not_lt_zero _)
  | succ levels ih =>
      rw [typeWithin] at rendered
      rcases path.cases_head with rfl | ⟨inner, holds, rest⟩
      · intro isUnion
        rw [isUnion] at rendered
        cases rendered
      · have smaller : inner < part := elementsFirst part inner holds
        have enough : inner < levels := Nat.lt_of_lt_of_le smaller (Nat.le_of_lt_succ enough)
        have isElement : inner ∈ (context.types.node part).elements := holds
        cases node : context.types.node part with
        | array element | list element =>
            rw [node] at rendered isElement
            obtain ⟨text, isText, -⟩ := Emit.bind_eq_ok.mp rendered
            obtain rfl := List.mem_singleton.mp isElement
            exact ih isText enough rest
        | map key value =>
            rw [node] at rendered isElement
            obtain ⟨keyText, isKey, rendered⟩ := Emit.bind_eq_ok.mp rendered
            obtain ⟨valueText, isValue, -⟩ := Emit.bind_eq_ok.mp rendered
            rcases List.mem_pair.mp isElement with rfl | rfl
            · exact ih isKey enough rest
            · exact ih isValue enough rest
        | queue element =>
            rw [node] at rendered
            cases rendered
        | _ =>
            rw [node] at isElement
            exact absurd isElement List.not_mem_nil

/-- What the Java code of a unit names, it spells. -/
theorem typeName_of_names (names : context.Names .java part)
    (types : ∀ node ∈ context.customTypes, ∃ code, nestedClass context node = .ok code)
    (methods : ∀ methods, context.methods = .ok methods →
      ∃ files, interfaceFile context = .ok files) :
    ∃ text, typeName context part = .ok text := by
  cases names with
  | @member node record member emitted defined isRecord listed =>
      obtain ⟨code, rendered⟩ := types node emitted
      cases node with
      | struct own =>
          cases isRecord
          obtain ⟨body, isBody, -⟩ := Emit.bind_eq_ok.mp rendered
          obtain ⟨fields, areFields, -⟩ := Emit.bind_eq_ok.mp isBody
          obtain ⟨field, -, isField⟩ := Emit.exists_of_mapM areFields listed
          obtain ⟨text, isText, -⟩ := Emit.bind_eq_ok.mp isField
          exact ⟨text, isText⟩
      | union own => exact absurd rfl defined
      | _ => cases isRecord
  | @parameter own command parameter emitted isMethod isParameter =>
      obtain ⟨files, rendered⟩ := methods own emitted
      obtain ⟨shown, areShown, rendered⟩ := Emit.bind_eq_ok.mp rendered
      obtain rfl : own = shown := Except.ok.inj (emitted.symm.trans areShown)
      obtain ⟨signatures, areSignatures, -⟩ := Emit.bind_eq_ok.mp rendered
      obtain ⟨code, isCode, -⟩ := Code.infix_forEach areSignatures isMethod
      obtain ⟨signature, isSignature, -⟩ := Emit.bind_eq_ok.mp isCode
      obtain ⟨declarators, areDeclarators, -⟩ := Emit.bind_eq_ok.mp isSignature
      obtain ⟨declarator, -, isDeclarator⟩ := Emit.exists_of_mapM areDeclarators isParameter
      obtain ⟨text, isText, -⟩ := Emit.bind_eq_ok.mp isDeclarator
      exact ⟨text, isText⟩

end JavaCode

namespace Program

variable {program : Program} {options : Options} {language : Language} {unit : CompiledUnit}
  {files : List GeneratedFile} {type : TypeId}

/-- The unit has the type among its definitions, or is the unit of the interface. -/
def DeclaredBy (program : Program) (unit : CompiledUnit) (type : TypeId) : Prop :=
  type ∈ unit.definitions ∨ unit.interface = some type ∧ (program.types.interface? type).isSome

/-- The code of a build names a type, or a container that leads to it through its elements. -/
def BuildNames (program : Program) (options : Options) (language : Language) (type : TypeId) : Prop :=
  ∃ unit ∈ program.units, program.shows options unit = true ∧
    ∃ part, (EmitContext.mk options program unit).Names language part ∧
      ReflTransGen program.types.HoldsElement part type

/-- The code of a build defines a type: among the files that are rendered for a unit that declares the
type, the declaration file has a definition of this name. -/
def BuildDefines (program : Program) (options : Options) (language : Language) (type : TypeId) : Prop :=
  ∃ unit ∈ program.units, program.DeclaredBy unit type ∧
    ∃ files, program.render options language unit = .ok files ∧
      ∃ file ∈ files, file.name = language.declarationFile unit ∧
        ∃ name, (program.types.node type).name? = some name ∧
          name.toList ∈ file.definedNames language unit

theorem BuildNames.declaresType (names : program.BuildNames options language type)
    (reachable : program.Reachable) (declared : program.types.Declared type) :
    program.DeclaresType type := by
  obtain ⟨unit, listed, -, part, names, path⟩ := names
  exact (reachable.grounded unit listed).reached type ⟨part, names.spells, path⟩ declared

section Units

theorem noInterface_of_types (shape : unit.Shape program) (isTypes : unit.kind = .types) :
    unit.interface = none := by
  cases shape with
  | sequenceable _ _ noInterface => exact noInterface
  | types _ noInterface => exact noInterface
  | interface id kind isInterface =>
      rw [isTypes, Parse.unitKind, isInterface] at kind
      dsimp only at kind
      split at kind <;> cases kind

/-- A unit with definitions is never hidden. -/
theorem shows_of_noInterface (noInterface : unit.interface = none) :
    program.shows options unit = true := by
  simp [shows, interfaceOf?, noInterface]

theorem shows_of_interface {declared : InterfaceType} (isInterface : unit.interface = some type)
    (found : program.types.interface? type = some declared) :
    program.shows options unit = declared.attributes.visible options.kernel := by
  simp [shows, interfaceOf?, isInterface, found]

theorem attributes_of_interface? {declared : InterfaceType}
    (found : program.types.interface? type = some declared) :
    (program.types.node type).attributes = declared.attributes := by
  unfold TypeArena.interface? at found
  cases node : program.types.node type <;> simp_all [TypeNode.attributes]

/-- The files of a unit of types are those of its types. -/
theorem customTypes_of_render (shape : unit.Shape program) (isTypes : unit.kind = .types)
    (rendered : program.render options language unit = .ok files) :
    Artifact.render ⟨options, program, unit⟩ language .customTypes = .ok files := by
  have noInterface := noInterface_of_types shape isTypes
  have selected : (Artifact.forUnit unit.kind options.buildTarget).filter language.supports =
      [.customTypes] := by
    rw [isTypes]
    cases language <;> rfl
  rw [render, if_pos (shows_of_noInterface noInterface), selected] at rendered
  obtain ⟨groups, areGroups, whole⟩ := Emit.bind_eq_ok.mp rendered
  rw [List.mapM_cons] at areGroups
  obtain ⟨own, isOwn, areGroups⟩ := Emit.bind_eq_ok.mp areGroups
  cases areGroups
  have isFiles : own = files := by
    simpa using Except.ok.inj whole
  rwa [← isFiles]

/-- The files of an interface that the build shows are among those of its unit. -/
theorem interface_of_render (shape : unit.Shape program) (isInterface : unit.interface = some type)
    (shown : program.shows options unit = true)
    (rendered : program.render options language unit = .ok files) :
    ∃ own, Artifact.render ⟨options, program, unit⟩ language .interface = .ok own ∧
      ∀ file ∈ own, file ∈ files := by
  have kind : unit.kind = .interface ∨ unit.kind = .callback := by
    cases shape with
    | sequenceable _ _ noInterface => simp [noInterface] at isInterface
    | types _ noInterface => simp [noInterface] at isInterface
    | interface id kind isSome =>
        rw [kind, Parse.unitKind, isSome]
        dsimp only
        split
        · exact .inr rfl
        · exact .inl rfl
  have selected : .interface ∈ Artifact.forUnit unit.kind options.buildTarget := by
    rcases kind with kind | kind <;> rw [kind] <;> cases options.buildTarget <;> decide
  exact artifact_of_render rendered shown selected (by cases language <;> rfl)

/-- A definition of a declared type, in a unit of types. -/
theorem isTypes_of_definitions (shape : unit.Shape program) (defined : type ∈ unit.definitions)
    (declared : program.types.Declared type) :
    unit.kind = .types ∧ ∀ found, program.types.node type ≠ .interface found := by
  cases shape with
  | sequenceable id kind noInterface definitions inside node =>
      obtain rfl : type = id := by simpa [definitions] using defined
      exact absurd (by rw [node]; rfl) declared
  | types kind noInterface definitions isDeclared =>
      refine ⟨kind, fun found isInterface => ?_⟩
      obtain ⟨declaration, isDeclaration, notInterface⟩ := isDeclared type defined
      rw [isInterface] at isDeclaration
      cases isDeclaration
      exact notInterface rfl
  | interface id kind isInterface definitions => simp [definitions] at defined

end Units

section Builds

/-- Every declared type but an interface is defined under its name, except for unions in Java. -/
theorem definesAs?_of_declared {node : TypeNode} (declared : node.declaration? ≠ none)
    (notInterface : ∀ found, node ≠ .interface found)
    (notUnion : language = .java → ∀ record, node ≠ .union record) :
    ∃ name, node.name? = some name ∧ language.definesAs? node = some name := by
  cases node with
  | enum own => exact ⟨own.name, rfl, by cases language <;> rfl⟩
  | struct own => exact ⟨own.name, rfl, by cases language <;> rfl⟩
  | union own =>
      refine ⟨own.name, rfl, ?_⟩
      cases language with
      | c | cpp => rfl
      | java => exact absurd rfl (notUnion rfl own)
  | interface own => exact absurd rfl (notInterface own)
  | _ => exact absurd rfl declared

theorem mem_names_of_name? {node : TypeNode} {name : String} (isName : node.name? = some name) :
    name ∈ node.names := by
  cases node <;> simp_all [TypeNode.name?, TypeNode.names]

/-- A type that is defined is defined under its name. -/
theorem name?_of_definesAs? {node : TypeNode} {name : String}
    (defines : language.definesAs? node = some name) : node.name? = some name := by
  cases language <;> cases node <;> cases defines <;> rfl

/-- If the units are rendered in Java, their code names no union. -/
theorem BuildNames.ne_union (names : program.BuildNames options .java type)
    (reachable : program.Reachable)
    (renders : ∀ unit ∈ program.units, ∃ files, program.render options .java unit = .ok files)
    (record : RecordType) : program.types.node type ≠ .union record := by
  obtain ⟨unit, listed, shown, part, names, path⟩ := names
  obtain ⟨files, rendered⟩ := renders unit listed
  have shape := (reachable.wellFormed.units unit listed).shape
  obtain ⟨text, isText⟩ : ∃ text, JavaCode.typeName ⟨options, program, unit⟩ part = .ok text := by
    refine JavaCode.typeName_of_names names (fun node emitted => ?_) fun methods areMethods => ?_
    · by_cases isTypes : unit.kind = .types
      · obtain ⟨classes, areClasses, -⟩ :=
          Emit.bind_eq_ok.mp (customTypes_of_render shape isTypes rendered)
        obtain ⟨code, isCode, -⟩ := Code.infix_forEach areClasses emitted
        exact ⟨code, isCode⟩
      · cases shape with
        | types kind => exact absurd kind isTypes
        | interface id kind isInterface definitions =>
            obtain ⟨id, defined, -⟩ := EmitContext.mem_customTypes emitted
            simp [definitions] at defined
        | sequenceable id kind noInterface definitions inside isNode =>
            obtain ⟨other, defined, rfl⟩ := EmitContext.mem_customTypes emitted
            obtain rfl : other = id := by simpa [definitions] using defined
            rw [show (EmitContext.mk options program unit).types.node other = _ from isNode]
            exact ⟨[], rfl⟩
    · obtain ⟨declared, found, -⟩ := EmitContext.interfaceOf?_of_methods areMethods
      obtain ⟨id, isInterface, -⟩ := Option.bind_eq_some_iff.mp found
      obtain ⟨own, isOwn, -⟩ := interface_of_render shape isInterface shown rendered
      exact ⟨own, isOwn⟩
  intro isUnion
  have inside : part < program.types.size := by
    rcases path.cases_head with rfl | ⟨inner, holds, -⟩
    · by_contra outside
      rw [TypeArena.node_of_size_le (Nat.le_of_not_lt outside)] at isUnion
      cases isUnion
    · exact holds.outer_lt_size
  exact @JavaCode.typeWithin_ne_union ⟨options, program, unit⟩ _ _ reachable.elementsFirst _ _ _ isText
    (Nat.lt_succ_of_lt inside) path record isUnion

/-- The unit of a visible type defines the type. -/
theorem buildDefines_of_visible (reachable : program.Reachable) (listed : unit ∈ program.units)
    (declaredBy : program.DeclaredBy unit type) (declared : program.types.Declared type)
    (notUnion : language = .java → ∀ record, program.types.node type ≠ .union record)
    (rendered : program.render options language unit = .ok files)
    (visible : (program.types.node type).attributes.visible options.kernel = true) :
    program.BuildDefines options language type := by
  have shape := (reachable.wellFormed.units unit listed).shape
  refine ⟨unit, listed, declaredBy, files, rendered, ?_⟩
  rcases declaredBy with defined | ⟨isInterface, found⟩
  · obtain ⟨isTypes, notInterface⟩ := isTypes_of_definitions shape defined declared
    obtain ⟨file, isFile, definesTypes, -⟩ :=
      @EmitContext.definesTypes ⟨options, program, unit⟩ _ _ reachable listed
        (customTypes_of_render shape isTypes rendered)
    obtain ⟨name, isName, defines⟩ := definesAs?_of_declared declared notInterface notUnion
    refine ⟨file, isFile, definesTypes.name, name, isName, definesTypes.all name ?_⟩
    exact List.mem_filterMap.mpr
      ⟨_, List.mem_filter.mpr ⟨List.mem_map_of_mem defined, visible⟩, defines⟩
  · obtain ⟨own, found⟩ := Option.isSome_iff_exists.mp found
    have shown : program.shows options unit = true := by
      rwa [shows_of_interface isInterface found, ← attributes_of_interface? found]
    obtain ⟨ownFiles, isOwn, areOwn⟩ := interface_of_render shape isInterface shown rendered
    have isName : (program.types.node type).name? = some unit.name := by
      cases shape with
      | sequenceable _ _ noInterface => simp [noInterface] at isInterface
      | types _ noInterface => simp [noInterface] at isInterface
      | interface id kind isSome definitions inside denotes =>
          obtain rfl := Option.some.inj (isSome.symm.trans isInterface)
          exact denotes.2
    have isWord : Text.IsWord unit.name :=
      reachable.spelled.types type _ (mem_names_of_name? isName)
    obtain ⟨file, isFile, isDeclaration, inFile⟩ :=
      @EmitContext.definesInterface ⟨options, program, unit⟩ _ _ reachable.spelled isWord isOwn
    exact ⟨file, areOwn file isFile, isDeclaration, unit.name, isName, inFile⟩

/-- What a unit defines is visible. -/
theorem visible_of_buildDefines (reachable : program.Reachable) (oneLine : program.NamedOnOneLine)
    (declared : program.types.Declared type) (defines : program.BuildDefines options language type) :
    (program.types.node type).attributes.visible options.kernel = true := by
  obtain ⟨unit, listed, declaredBy, files, rendered, file, isFile, isDeclaration, name, isName, inFile⟩ :=
    defines
  have sound := reachable.wellFormed.units unit listed
  rcases declaredBy with defined | ⟨isInterface, found⟩
  · obtain ⟨isTypes, notInterface⟩ := isTypes_of_definitions sound.shape defined declared
    obtain ⟨own, isOwn, definesTypes, only⟩ :=
      @EmitContext.definesTypes ⟨options, program, unit⟩ _ _ reachable listed
        (customTypes_of_render sound.shape isTypes rendered)
    obtain rfl := only file isFile (isDeclaration.trans definesTypes.name.symm)
    rw [definesTypes.only oneLine] at inFile
    obtain ⟨other, isOther, sameName⟩ := List.mem_map.mp inFile
    obtain rfl := String.toList_injective sameName
    obtain ⟨node, emitted, definesNode⟩ := List.mem_filterMap.mp isOther
    obtain ⟨inDefinitions, visible⟩ := List.mem_filter.mp emitted
    obtain ⟨id, isId, rfl⟩ := List.mem_map.mp inDefinitions
    obtain rfl := sound.eq_of_name?_eq isId defined
      ((name?_of_definesAs? definesNode).trans isName.symm)
    exact visible
  · obtain ⟨own, found⟩ := Option.isSome_iff_exists.mp found
    by_contra hidden
    have notShown : ¬program.shows options unit = true := by
      rwa [shows_of_interface isInterface found, ← attributes_of_interface? found]
    rw [render, if_neg notShown] at rendered
    cases rendered
    exact absurd isFile List.not_mem_nil

end Builds

/-- Whatever the code of a build names is declared by a unit of the program.  If all units are rendered,
the build defines it exactly if it is visible, where only a line break in the name of a file could make
up a definition.  So a build defines all that it names exactly if all of that is visible.  The
declaration file of a unit of types defines the visible ones in order, and the code of each of them
stands in a file. -/
theorem build_defines_named_iff (reachable : program.Reachable)
    (renders : ∀ unit ∈ program.units, ∃ files, program.render options language unit = .ok files) :
    (∀ type, program.BuildNames options language type → program.types.Declared type →
      program.DeclaresType type ∧
        ((program.types.node type).attributes.visible options.kernel = true →
          program.BuildDefines options language type) ∧
        (program.NamedOnOneLine → program.BuildDefines options language type →
          (program.types.node type).attributes.visible options.kernel = true)) ∧
      ∀ unit ∈ program.units, unit.kind = .types →
        ∀ files, program.render options language unit = .ok files →
          (∃ file ∈ files, (EmitContext.mk options program unit).DefinesTypes language file ∧
            ∀ other ∈ files, other.name = file.name → other = file) ∧
          ∀ node ∈ (EmitContext.mk options program unit).customTypes,
            ∃ code, (EmitContext.mk options program unit).definition language node = .ok code ∧
              ∃ file ∈ files, file.Contains code := by
  refine ⟨fun type names declared => ?_, fun unit listed isTypes files rendered => ?_⟩
  · have declares := names.declaresType reachable declared
    refine ⟨declares, fun visible => ?_, fun oneLine defines => ?_⟩
    · obtain ⟨unit, listed, declaredBy⟩ := declares
      obtain ⟨files, rendered⟩ := renders unit listed
      refine buildDefines_of_visible reachable listed declaredBy declared ?_ rendered visible
      rintro rfl record
      exact names.ne_union reachable renders record
    · exact visible_of_buildDefines reachable oneLine declared defines
  · have own := customTypes_of_render (reachable.wellFormed.units unit listed).shape isTypes rendered
    exact ⟨@EmitContext.definesTypes ⟨options, program, unit⟩ _ _ reachable listed own,
      fun node emitted => EmitContext.contains_definition emitted own⟩

end Program

/-- A file with a struct for kernel builds and one that has it as a member. -/
def liteMemberSource : String :=
  "package a.v1_0; [lite] struct A \x7b int x; \x7d; struct B \x7b A a; \x7d;"

/-- What comes of the file. -/
def liteMemberOutcome : ParseOutcome :=
  ({} : Program).parseSource { language := some .c } [] ⟨"a/v1_0/Types.idl"⟩ liteMemberSource

theorem liteMemberOutcome_types :
    liteMemberOutcome.accepted = true ∧
      (∃ unit ∈ liteMemberOutcome.program.units.toList, unit.interface = none ∧
        14 ∈ unit.definitions ∧ 15 ∈ unit.definitions) ∧
      (∃ record ∈ liteMemberOutcome.program.types.record? 15, record.attributes = {} ∧
        ∃ member ∈ record.members, member.type = 14) ∧
      ∃ record ∈ liteMemberOutcome.program.types.record? 14,
        record.name = "A" ∧ record.attributes = { lite := true } := by
  decide +kernel

theorem liteMemberOutcome_oneLine :
    (∀ unit ∈ liteMemberOutcome.program.units.toList, '\n' ∉ unit.name.toList) ∧
      ∀ node ∈ liteMemberOutcome.program.types.nodes.toList,
        ∀ name ∈ node.outer?, '\n' ∉ name.toList := by
  decide +kernel

/-- The file is rendered in kernel builds and in user builds. -/
theorem liteMemberOutcome_renders (kernel : Bool) :
    ∀ unit ∈ liteMemberOutcome.program.units, ∃ files,
      liteMemberOutcome.program.render { kernel := kernel } .c unit = .ok files := by
  have rendered : ∀ unit ∈ liteMemberOutcome.program.units.toList,
      (liteMemberOutcome.program.render { kernel := kernel } .c unit).toOption.isSome = true := by
    cases kernel <;> decide +kernel
  intro unit listed
  have isSome := rendered unit (Array.mem_toList_iff.mpr listed)
  cases isRendered : liteMemberOutcome.program.render { kernel := kernel } .c unit with
  | ok files => exact ⟨files, rfl⟩
  | error fault => simp [isRendered, Except.toOption] at isSome

/-- A struct that all builds have names one that user builds do not have. -/
theorem buildNames_liteMember (options : Options) :
    liteMemberOutcome.program.Reachable ∧ liteMemberOutcome.program.BuildNames options .c 14 ∧
      liteMemberOutcome.program.types.Declared 14 ∧
      (liteMemberOutcome.program.types.node 14).attributes = { lite := true } := by
  have reachable : liteMemberOutcome.program.Reachable := .parse _ _ _ _ .empty
  obtain ⟨-, ⟨unit, listed, noInterface, -, defined⟩, ⟨outer, isOuter, always, member, isMember, isInner⟩,
    inner, found, -, lite⟩ := liteMemberOutcome_types
  have listed := Array.mem_toList_iff.mp listed
  rw [TypeArena.record?_eq] at isOuter found
  have attributes {node : TypeNode} {record : RecordType} (isRecord : node.record? = some record) :
      node.attributes = record.attributes ∧ node.declaration? ≠ none ∧
        Language.c.definesAs? node ≠ none := by
    cases node <;> simp_all [TypeNode.record?, TypeNode.attributes, TypeNode.declaration?,
      Language.definesAs?]
  refine ⟨reachable, ⟨unit, listed, Program.shows_of_noInterface noInterface, 14, ?_, .refl⟩,
    (attributes found).2.1, ?_⟩
  · rw [← isInner]
    refine .member (List.mem_filter.mpr ⟨List.mem_map_of_mem defined, ?_⟩) (attributes isOuter).2.2
      isOuter isMember
    rw [show ((EmitContext.mk options liteMemberOutcome.program unit).types.node 15).attributes = {} from
      (attributes isOuter).1.trans always]
    cases (EmitContext.mk options liteMemberOutcome.program unit).kernel <;> rfl
  · rw [(attributes found).1, lite]

/-- Kernel builds have both structs. -/
theorem build_defines_named_iff_kernel :
    liteMemberOutcome.program.Reachable ∧
      (∀ unit ∈ liteMemberOutcome.program.units, ∃ files,
        liteMemberOutcome.program.render { kernel := true } .c unit = .ok files) ∧
      liteMemberOutcome.program.BuildNames { kernel := true } .c 14 ∧
      liteMemberOutcome.program.types.Declared 14 ∧
      liteMemberOutcome.program.BuildDefines { kernel := true } .c 14 := by
  obtain ⟨reachable, names, declared, lite⟩ := buildNames_liteMember { kernel := true }
  have renders := liteMemberOutcome_renders true
  obtain ⟨named, -⟩ := Program.build_defines_named_iff reachable renders
  refine ⟨reachable, renders, names, declared, (named 14 names declared).2.1 ?_⟩
  rw [lite]
  rfl

/-- The code of the user build names a struct that no rendered file of the build defines. -/
theorem accepted_build_names_hidden_type :
    liteMemberOutcome.accepted = true ∧
      (∀ unit ∈ liteMemberOutcome.program.units, ∃ files,
        liteMemberOutcome.program.render { kernel := false } .c unit = .ok files) ∧
      ∃ type, liteMemberOutcome.program.BuildNames { kernel := false } .c type ∧
        liteMemberOutcome.program.types.Declared type ∧
        (liteMemberOutcome.program.types.node type).attributes.visible false = false ∧
        ¬liteMemberOutcome.program.BuildDefines { kernel := false } .c type := by
  obtain ⟨reachable, names, declared, lite⟩ := buildNames_liteMember { kernel := false }
  have hidden : (liteMemberOutcome.program.types.node 14).attributes.visible false = false := by
    rw [lite]
    rfl
  refine ⟨liteMemberOutcome_types.1, liteMemberOutcome_renders false, 14, names, declared, hidden,
    fun defines => ?_⟩
  obtain ⟨units, nodes⟩ := liteMemberOutcome_oneLine
  have oneLine := Program.NamedOnOneLine.of_nodes
    (fun unit listed => units unit (Array.mem_toList_iff.mpr listed)) nodes
  have visible := Program.visible_of_buildDefines reachable oneLine declared defines
  exact Bool.false_ne_true (hidden.symm.trans visible)

end DriverIdl
