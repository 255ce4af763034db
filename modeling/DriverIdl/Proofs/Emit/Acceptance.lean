import DriverIdl.Emit.Render
import DriverIdl.Proofs.Emit.C
import DriverIdl.Proofs.Emit.Java
import DriverIdl.Proofs.Program.UnitShape

/-!
# Accepted units are rendered

A text is checked against the target language before it is accepted, so rendering should never meet
a type that it has no code for.  Two things get past the check.  The brackets of an array hide the
type in front of them, because the check looks at the whole type expression.  And a unit that is
`Shadowed` may hold another type in the place of its interface.  Nothing else does.
-/

namespace DriverIdl

open Relation

section Artifacts

variable {context : EmitContext} {language : Language} {interface : InterfaceType}

theorem customTypes_render_succeeds (selected : context.options.language = some language)
    (expressible : context.Expressible) :
    Succeeds (Artifact.customTypes.render context language) := by
  cases language with
  | c => exact CCode.customTypes_succeeds selected expressible
  | cpp => exact .pure _
  | java => exact JavaCode.customTypes_succeeds selected expressible

/-- C++ has all types, so all it needs is the interface. -/
theorem cpp_render_succeeds
    (found : context.program.interfaceOf? context.unit = some interface) (artifact : Artifact) :
    Succeeds (artifact.render context .cpp) := by
  cases artifact with
  | customTypes => exact .pure _
  | interface => exact EmitContext.methods_bind found fun _ _ => .pure _
  | proxy =>
      exact .bind (EmitContext.interface_succeeds found) fun _ =>
        EmitContext.methods_bind found fun _ _ => .pure _
  | stub => exact EmitContext.methods_bind found fun _ _ => .pure _
  | driver => exact .pure _
  | serviceImpl => exact EmitContext.methods_bind found fun _ _ => .pure _

theorem render_succeeds (selected : context.options.language = some language)
    (expressible : context.Expressible)
    (found : context.program.interfaceOf? context.unit = some interface) {artifact : Artifact}
    (available : language.supports artifact = true) : Succeeds (artifact.render context language) := by
  cases language with
  | cpp => exact cpp_render_succeeds found artifact
  | c =>
      cases artifact with
      | customTypes => exact customTypes_render_succeeds selected expressible
      | interface => exact CCode.interfaceHeader_succeeds selected expressible found
      | proxy => exact CCode.proxy_succeeds selected expressible found
      | stub => exact CCode.stub_succeeds selected expressible found
      | driver => exact .pure _
      | serviceImpl => exact CCode.service_succeeds selected expressible found
  | java =>
      cases artifact with
      | customTypes => exact customTypes_render_succeeds selected expressible
      | interface => exact JavaCode.interfaceFile_succeeds selected expressible found
      | proxy => exact JavaCode.proxy_succeeds selected expressible found
      | _ => cases available

end Artifacts

namespace CompiledUnit

variable {program : Program} {unit : CompiledUnit}

/-- A type that code for the unit spells out: that of a member or parameter, or an element in it. -/
def Mentions (program : Program) (unit : CompiledUnit) (type : TypeId) : Prop :=
  ∃ declared part, (declared ∈ unit.definitions ∨ unit.interface = some declared) ∧
    part ∈ (program.types.node declared).parts ∧ ReflTransGen program.types.HoldsElement part type

/-- The declarations of a unit are not arrays, so the types they refer to have passed the support
check. -/
theorem Shape.mem_checkedParts (shape : unit.Shape program) {declared part : TypeId}
    (declares : declared ∈ unit.definitions ∨ unit.interface = some declared)
    (listed : part ∈ (program.types.node declared).parts) :
    part ∈ (program.types.node declared).checkedParts := by
  cases node : program.types.node declared with
  | array element =>
      rcases shape.own_or_defined declares with denotes | ⟨-, -, isDeclared⟩
      · rw [node] at denotes
        cases denotes.1
      · simp [node, TypeNode.declaration?] at isDeclared
  | _ =>
      rw [node] at listed
      exact listed

end CompiledUnit

namespace Program

variable {options : Options} {program : Program} {unit : CompiledUnit}

/-- Programs that come from texts that were all accepted under the same options. -/
inductive AcceptedUnder (options : Options) : Program → Prop where
  | empty : AcceptedUnder options {}
  | parse {program : Program} (diagnostics : List Diagnostic) (path : Path) (source : String)
      (before : AcceptedUnder options program)
      (accepted : (program.parseSource options diagnostics path source).accepted = true) :
      AcceptedUnder options (program.parseSource options diagnostics path source).program

theorem AcceptedUnder.reachable (accepted : program.AcceptedUnder options) : program.Reachable := by
  induction accepted with
  | empty => exact .empty
  | parse diagnostics path source _ _ ih => exact .parse options diagnostics path source ih

theorem AcceptedUnder.supported (accepted : program.AcceptedUnder options) :
    program.types.Supported options := by
  induction accepted with
  | empty => exact .initial
  | parse diagnostics path source before accepted ih =>
      obtain ⟨read, -, accepts⟩ := accepts_of_accepted before.reachable.wellFormed accepted
      rw [accepts.types_eq]
      exact accepts.built.builds.supported ih

/-- All that code for a unit spells out is expressible, if the elements of its arrays pass the
support check. -/
theorem expressible_of_arrays (wellFormed : program.WellFormed)
    (supported : program.types.Supported options) (listed : unit ∈ program.units)
    (arrays : ∀ array element, unit.Mentions program array →
      program.types.node array = .array element →
      supportFault? options program.types element = none) :
    EmitContext.Expressible ⟨options, program, unit⟩ := by
  have shape := (wellFormed.units unit listed).shape
  have parts : ∀ declared, declared ∈ unit.definitions ∨ unit.interface = some declared →
      ∀ part ∈ (program.types.node declared).parts, Expressible options program.types part := by
    intro declared declares part isPart
    have usable := supported declared part (shape.mem_checkedParts declares isPart)
    refine .of_usable supported usable fun array element path isArray => ?_
    exact arrays array element ⟨declared, part, declares, isPart, path⟩ isArray
  refine ⟨wellFormed.types, fun id isDefined => parts id (.inl isDefined), ?_⟩
  intro interface found method isMethod parameter isParameter
  obtain ⟨id, isInterface, node⟩ := Option.bind_eq_some_iff.mp found
  apply parts id (.inr isInterface)
  have isNode : program.types.node id = .interface interface := by
    unfold TypeArena.interface? at node
    split at node <;> simp_all
  rw [isNode]
  exact List.mem_flatMap.mpr ⟨method, isMethod, List.mem_map_of_mem isParameter⟩

/-- A unit has artifacts of its interface only if it holds one. -/
theorem interfaceOf?_of_notShadowed (shape : unit.Shape program)
    (notShadowed : unit.interface ≠ none → ¬unit.Shadowed program) :
    unit.kind = .sequenceable ∨ unit.kind = .types ∨
      ∃ interface, program.interfaceOf? unit = some interface := by
  cases shape with
  | sequenceable id kind => exact .inl kind
  | types kind => exact .inr (.inl kind)
  | interface id kind isInterface definitions inside denotes declared =>
      have isDeclared := declared.resolve_right (notShadowed (by simp [isInterface]))
      refine .inr (.inr ?_)
      rw [interfaceOf?, isInterface]
      show ∃ interface, program.types.interface? id = some interface
      unfold TypeArena.interface?
      cases node : program.types.node id <;> simp_all [TypeNode.declaration?]

/-- A unit is rendered if all that it spells out is expressible and it holds what it should. -/
theorem render_eq_ok {language : Language} (selected : options.language = some language)
    (expressible : EmitContext.Expressible ⟨options, program, unit⟩)
    (holds : unit.kind = .sequenceable ∨ unit.kind = .types ∨
      ∃ interface, program.interfaceOf? unit = some interface) :
    ∃ files, program.render options language unit = .ok files := by
  suffices artifacts : ∀ artifact ∈
      (Artifact.forUnit unit.kind options.buildTarget).filter language.supports,
      Succeeds (artifact.render ⟨options, program, unit⟩ language) by
    unfold render
    split
    · exact Succeeds.bind (.mapM artifacts) fun _ => .pure _
    · exact ⟨[], rfl⟩
  intro artifact isArtifact
  obtain ⟨ofUnit, available⟩ := List.mem_filter.mp isArtifact
  rcases holds with kind | kind | ⟨interface, found⟩
  · simp [kind, Artifact.forUnit] at ofUnit
  · obtain rfl : artifact = .customTypes := by simpa [kind, Artifact.forUnit] using ofUnit
    exact customTypes_render_succeeds selected expressible
  · exact render_succeeds selected expressible found available

/-- Acceptance implies generation, with two exceptions: every unit of a program whose texts were all
accepted under the options is rendered, unless an array that it mentions has elements the language
cannot express, or its interface is shadowed. -/
theorem accepted_unit_renders {language : Language} (selected : options.language = some language)
    (accepted : program.AcceptedUnder options) (listed : unit ∈ program.units)
    (notShadowed : unit.interface ≠ none → ¬unit.Shadowed program)
    (arrays : ∀ array element, unit.Mentions program array →
      program.types.node array = .array element →
      supportFault? options program.types element = none) :
    ∃ files, program.render options language unit = .ok files := by
  have wellFormed := accepted.reachable.wellFormed
  have expressible := expressible_of_arrays wellFormed accepted.supported listed arrays
  have shape := (wellFormed.units unit listed).shape
  exact render_eq_ok selected expressible (interfaceOf?_of_notShadowed shape notShadowed)

/-- Options of a run that writes C. -/
def cOptions : Options := { language := some .c }

/-- A file whose interface has an array among its parameters. -/
def arrayOutcome : ParseOutcome :=
  ({} : Program).parseSource cOptions [] ⟨"a/v1_0/IFoo.idl"⟩
    "package a.v1_0; interface IFoo \x7b Put([in] int[] values); \x7d"

theorem arrayOutcome_spec :
    arrayOutcome.accepted = true ∧
      (arrayOutcome.program.units[0]?).map (fun unit => (unit.kind, unit.imports)) =
        some (.interface, []) ∧
      ∀ array < arrayOutcome.program.types.size,
        ∀ element ∈ (arrayOutcome.program.types.node array).elements,
          supportFault? cOptions arrayOutcome.program.types element = none := by
  decide +kernel

theorem array_interface_renders : ∃ unit ∈ arrayOutcome.program.units, unit.kind = .interface ∧
    ∃ files, arrayOutcome.program.render cOptions .c unit = .ok files := by
  obtain ⟨accepted, units, elements⟩ := arrayOutcome_spec
  obtain ⟨unit, present, isUnit⟩ := Option.map_eq_some_iff.mp units
  obtain ⟨kind, imports⟩ := Prod.mk.inj isUnit
  have listed := Array.mem_of_getElem? present
  refine ⟨unit, listed, kind,
    accepted_unit_renders rfl (.parse _ _ _ .empty accepted) listed ?_ ?_⟩
  · rintro - ⟨name, id, imported, isImport, -⟩
    simp [imports] at isImport
  · intro array element _ isArray
    rcases Nat.lt_or_ge array arrayOutcome.program.types.size with inside | outside
    · exact elements array inside element (by simp [isArray, TypeNode.elements])
    · rw [TypeArena.node_of_size_le outside] at isArray
      cases isArray

/-- A file with an array of queues. -/
def queueArrayOutcome : ParseOutcome :=
  ({} : Program).parseSource cOptions [] ⟨"a/v1_0/Types.idl"⟩
    "package a.v1_0; struct S \x7b SharedMemQueue<int>[] x; \x7d;"

/-- A file with the struct that shadows an interface. -/
def shadowingOutcome : ParseOutcome :=
  ({} : Program).parseSource cOptions [] ⟨"a/v1_0/Types.idl"⟩ shadowingSource

/-- The file with the interface, behind that with the struct. -/
def shadowedOutcome : ParseOutcome :=
  shadowingOutcome.program.parseSource cOptions [] ⟨"a/v1_0/IFoo.idl"⟩ shadowedSource

/-- Why a unit is not rendered in C. -/
def fault? (program : Program) (unit : CompiledUnit) : Option GenerateFault :=
  match program.render cOptions .c unit with
  | .ok _ => none
  | .error fault => some fault

theorem exists_unit_not_rendered {index : Nat} {fault : GenerateFault}
    (found : (program.units[index]?).bind program.fault? = some fault) :
    ∃ unit ∈ program.units, program.render cOptions .c unit = .error fault := by
  obtain ⟨unit, present, isFault⟩ := Option.bind_eq_some_iff.mp found
  refine ⟨unit, Array.mem_of_getElem? present, ?_⟩
  unfold fault? at isFault
  split at isFault <;> simp_all

theorem queueArrayOutcome_spec :
    queueArrayOutcome.accepted = true ∧
      (queueArrayOutcome.program.units[0]?).bind queueArrayOutcome.program.fault? =
        some (.unsupportedInC "SharedMemQueue<int>") := by
  decide +kernel

theorem shadowedOutcome_spec :
    shadowingOutcome.accepted = true ∧ shadowedOutcome.accepted = true ∧
      (shadowedOutcome.program.units[1]?).bind shadowedOutcome.program.fault? =
        some (.noInterface "a.v1_0.IFoo") := by
  decide +kernel

/-- Neither exception can be left out: an array of queues and a shadowed interface are accepted, and
neither is rendered. -/
theorem accepted_units_not_rendered :
    (queueArrayOutcome.program.AcceptedUnder cOptions ∧ ∃ unit ∈ queueArrayOutcome.program.units,
      queueArrayOutcome.program.render cOptions .c unit =
        .error (.unsupportedInC "SharedMemQueue<int>")) ∧
    (shadowedOutcome.program.AcceptedUnder cOptions ∧ ∃ unit ∈ shadowedOutcome.program.units,
      shadowedOutcome.program.render cOptions .c unit = .error (.noInterface "a.v1_0.IFoo")) := by
  obtain ⟨queuesAccepted, queueFault⟩ := queueArrayOutcome_spec
  obtain ⟨structAccepted, interfaceAccepted, shadowFault⟩ := shadowedOutcome_spec
  exact ⟨⟨.parse _ _ _ .empty queuesAccepted, exists_unit_not_rendered queueFault⟩,
    .parse _ _ _ (.parse _ _ _ .empty structAccepted) interfaceAccepted,
    exists_unit_not_rendered shadowFault⟩

end Program

end DriverIdl
