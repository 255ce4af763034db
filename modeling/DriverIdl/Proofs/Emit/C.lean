import DriverIdl.Emit.Declarations.C
import DriverIdl.Emit.Host.C
import DriverIdl.Emit.Proxy.C
import DriverIdl.Emit.Stub.C
import DriverIdl.Proofs.Emit.Expressible

/-!
# C code for expressible types

In C an expressible type is a single value, or a sequence of single values whose length stands
beside it.  So no statement needs the length of a sequence inside a sequence.
-/

namespace DriverIdl.CCode

/-- The types of values that C code handles without a length. -/
def isSingle : TypeNode → Bool
  | .primitive _ | .enum _ | .struct _ | .union _ | .interface _ => true
  | _ => false

/-- What a type can be in C. -/
inductive Handled (types : TypeArena) (type : TypeId) : Prop where
  | single (single : isSingle (types.node type) = true)
  | sequence (element : TypeId)
      (holds : types.node type = .array element ∨ types.node type = .list element)
      (single : isSingle (types.node element) = true)

theorem isSingle_of_supported {options : Options} {types : TypeArena} {type : TypeId}
    (isC : options.language = some .c) (supported : supportFault? options types type = none)
    (flat : (types.node type).isContainer = false) : isSingle (types.node type) = true := by
  simp only [supportFault?, isC] at supported
  cases node : types.node type <;> simp_all [isSingle, TypeNode.isContainer]

theorem handled_of_expressible {options : Options} {types : TypeArena} {type : TypeId}
    (isC : options.language = some .c) (expressible : Expressible options types type) :
    Handled types type := by
  have supported := expressible.supported
  cases flat : (types.node type).isContainer with
  | false => exact .single (isSingle_of_supported isC supported flat)
  | true =>
      have sequence : ∀ element, types.node type = .array element ∨ types.node type = .list element →
          Handled types type := by
        intro element holds
        have isElement : element ∈ (types.node type).elements := by
          rcases holds with isArray | isList
          · simp [isArray, TypeNode.elements]
          · simp [isList, TypeNode.elements]
        refine .sequence element holds
          (isSingle_of_supported isC (expressible.element isElement).supported ?_)
        rcases holds with node | node <;> simpa [supportFault?, isC, node] using supported
      cases node : types.node type with
      | array element => exact sequence element (.inl node)
      | list element => exact sequence element (.inr node)
      | map key value => simp [supportFault?, isC, node] at supported
      | _ => simp [node, TypeNode.isContainer] at flat

/-- The elements of a sequence are single values. -/
theorem Handled.element {types : TypeArena} {type element : TypeId} (handled : Handled types type)
    (holds : types.node type = .array element ∨ types.node type = .list element) :
    isSingle (types.node element) = true := by
  cases handled with
  | single single => rcases holds with node | node <;> simp [node, isSingle] at single
  | sequence other isSequence single =>
      rcases holds with node | node <;> rcases isSequence with same | same <;> simp_all

section Statements

variable {types : TypeArena} {type : TypeId}

theorem bufferSuffix_succeeds {primitive : Primitive}
    (isFixed : (bufferSuffix? primitive).isSome = true) :
    Succeeds (bufferSuffix types type primitive) := by
  obtain ⟨suffix, found⟩ := Option.isSome_iff_exists.mp isFixed
  rw [bufferSuffix, found]
  exact .pure suffix

theorem bufferSuffix_enum (sound : types.Sound) {declared : EnumType}
    (node : types.node type = .enum declared) : Succeeds (bufferSuffix types type declared.base) := by
  apply bufferSuffix_succeeds
  have integral := sound.enum_integral type declared node
  generalize declared.base = base at integral
  cases base <;> first | rfl | cases integral

theorem typeWithin_single (single : isSingle (types.node type) = true) (depth : Nat) :
    Succeeds (typeWithin types depth type) := by
  cases depth with
  | zero => exact .pure ""
  | succ depth =>
      rw [typeWithin]
      cases node : types.node type <;> first | exact .pure _ | simp [node, isSingle] at single

theorem typeName_single (single : isSingle (types.node type) = true) :
    Succeeds (typeName types type) :=
  typeWithin_single single _

theorem typeName_succeeds (handled : Handled types type) : Succeeds (typeName types type) := by
  cases handled with
  | single single => exact typeName_single single
  | sequence element holds single =>
      rw [typeName, typeWithin]
      rcases holds with node | node <;> rw [node] <;>
        exact .bind (typeWithin_single single _) fun _ => .pure _

theorem writeWithin_single (sound : types.Sound) (single : isSingle (types.node type) = true)
    (recovery : Recovery) (buffer : String) (levels : Nat) (value : String) (length : Option String)
    (depth : Nat) :
    Succeeds (writeWithin types recovery buffer levels type value length depth) := by
  cases levels with
  | zero => exact .pure []
  | succ levels =>
      rw [writeWithin]
      cases node : types.node type with
      | primitive primitive => cases primitive <;> exact .pure _
      | enum declared => exact .bind (bufferSuffix_enum sound node) fun _ => .pure _
      | struct record => exact .pure _
      | union record => exact .pure _
      | interface declared => exact .pure _
      | _ => simp [node, isSingle] at single

theorem write_succeeds (sound : types.Sound) (handled : Handled types type) (recovery : Recovery)
    (buffer value length : String) :
    Succeeds (write types recovery buffer type value (some length)) := by
  cases handled with
  | single single => exact writeWithin_single sound single ..
  | sequence element holds single =>
      rw [write, writeWithin]
      rcases holds with node | node <;> rw [node] <;>
        exact .bind (.pure length) fun _ =>
          .bind (writeWithin_single sound single ..) fun _ => .pure _

theorem readWithin_single (sound : types.Sound) (single : isSingle (types.node type) = true)
    (recovery : Recovery) (buffer : String) (levels : Nat) (target : String)
    (length : Option String)
    (depth : Nat) :
    Succeeds (readWithin types recovery buffer levels type target length depth) := by
  cases levels with
  | zero => exact .pure []
  | succ levels =>
      rw [readWithin]
      cases node : types.node type with
      | primitive primitive => cases primitive <;> exact .pure _
      | enum declared => exact .bind (bufferSuffix_enum sound node) fun _ => .pure _
      | struct record => exact .pure _
      | union record => exact .pure _
      | interface declared => exact .pure _
      | _ => simp [node, isSingle] at single

theorem read_succeeds (sound : types.Sound) (handled : Handled types type) (recovery : Recovery)
    (buffer target length : String) :
    Succeeds (read types recovery buffer type target (some length)) := by
  cases handled with
  | single single => exact readWithin_single sound single ..
  | sequence element holds single =>
      rw [read, readWithin]
      rcases holds with node | node <;> rw [node] <;>
        exact .bind (.pure length) fun _ => .bind (typeName_single single) fun _ =>
          .bind (readWithin_single sound single ..) fun _ => .pure _

theorem releaseWithin_single (single : isSingle (types.node type) = true) (levels : Nat)
    (target : String) (length : Option String) (depth : Nat) :
    Succeeds (releaseWithin types levels type target length depth) := by
  cases levels with
  | zero => exact .pure []
  | succ levels =>
      rw [releaseWithin]
      cases node : types.node type with
      | primitive primitive => cases primitive <;> exact .pure _
      | array element => simp [node, isSingle] at single
      | list element => simp [node, isSingle] at single
      | _ => exact .pure _

theorem release_succeeds (handled : Handled types type) (target length : String) :
    Succeeds (release types type target (some length)) := by
  cases handled with
  | single single => exact releaseWithin_single single ..
  | sequence element holds single =>
      have element := releaseWithin_single single types.size (elementOf 0 target) none 1
      rw [release]
      rcases holds with node | node <;> simp only [releaseWithin, node] <;> split
      · exact .bind (.pure length) fun _ => .bind element fun _ => .pure _
      · exact .pure _
      · exact .bind (.pure length) fun _ => .bind element fun _ => .pure _
      · exact .pure _

theorem parameterDeclarators_succeeds {parameter : Parameter}
    (handled : Handled types parameter.type) :
    Succeeds (parameterDeclarators types parameter) := by
  have name := typeName_succeeds handled
  unfold parameterDeclarators
  split
  · exact .pure _
  · exact .bind name fun _ => .pure _
  · exact .bind name fun _ => .pure _
  · next node => exact .bind (typeName_single (handled.element (.inl node))) fun _ => .pure _
  · next node => exact .bind (typeName_single (handled.element (.inr node))) fun _ => .pure _
  · exact .bind name fun _ => .pure _
  · exact .pure _
  · next node => exact .bind (typeName_single (handled.element (.inl node))) fun _ => .pure _
  · next node => exact .bind (typeName_single (handled.element (.inr node))) fun _ => .pure _
  · exact .bind name fun _ => .pure _

theorem memberDeclarations_succeeds {member : Member} (handled : Handled types member.type) :
    Succeeds (memberDeclarations types member) := by
  unfold memberDeclarations
  split
  · next node => exact .bind (typeName_single (handled.element (.inl node))) fun _ => .pure _
  · next node => exact .bind (typeName_single (handled.element (.inr node))) fun _ => .pure _
  · exact .bind (typeName_succeeds handled) fun _ => .pure _

theorem capacityUnit_succeeds {parameter : Parameter} (handled : Handled types parameter.type) :
    Succeeds (capacityUnit types parameter) := by
  unfold capacityUnit TypeArena.element?
  split
  · next node =>
      split at node
      · next isArray =>
          cases node
          exact typeName_single (handled.element (.inl isArray))
      · next isList =>
          cases node
          exact typeName_single (handled.element (.inr isList))
      · cases node
  · exact .pure _

theorem localVariables_succeeds {parameter : Parameter} (handled : Handled types parameter.type) :
    Succeeds (localVariables types parameter) :=
  .bind (typeName_succeeds handled) fun _ => .pure _

theorem readResult_succeeds (sound : types.Sound) {parameter : Parameter}
    (handled : Handled types parameter.type) (recovery : Recovery) (reply : String) :
    Succeeds (readResult types recovery reply parameter) := by
  unfold readResult readElements
  split
  · exact .pure _
  · next node =>
      have single := handled.element (.inl node)
      exact .bind (.bind (readWithin_single sound single ..) fun _ => .pure _) fun _ => .pure _
  · next node =>
      have single := handled.element (.inr node)
      exact .bind (.bind (readWithin_single sound single ..) fun _ => .pure _) fun _ => .pure _
  · next notArray notList =>
      cases handled with
      | single single => exact readWithin_single sound single ..
      | sequence element holds => exact (holds.elim (notArray element) (notList element)).elim

end Statements

section Files

variable {types : TypeArena} {record : RecordType}

theorem fields_succeeds (handled : ∀ member ∈ record.members, Handled types member.type) :
    Succeeds (fields types record) :=
  .bind (.mapM fun member listed => memberDeclarations_succeeds (handled member listed)) fun _ =>
    .pure _

theorem definition_succeeds {node : TypeNode} (handled : ∀ part ∈ node.parts, Handled types part) :
    Succeeds (definition types node) := by
  cases node with
  | struct record =>
      exact .bind (fields_succeeds fun member listed =>
        handled member.type (List.mem_map_of_mem listed)) fun _ => .pure _
  | union record =>
      exact .bind (fields_succeeds fun member listed =>
        handled member.type (List.mem_map_of_mem listed)) fun _ => .pure _
  | _ => exact .pure _

theorem functions_succeeds (sound : types.Sound)
    (handled : ∀ member ∈ record.members, Handled types member.type) :
    Succeeds (functions types record) := by
  have marshals : Succeeds (marshalling types record) :=
    .bind (.mapM fun member listed => write_succeeds sound (handled member listed) ..) fun _ => .pure _
  have unmarshals : Succeeds (unmarshalling types record) :=
    .bind (.mapM fun member listed => read_succeeds sound (handled member listed) ..) fun _ => .pure _
  have releases : Succeeds (releasing types record) :=
    .bind (.mapM fun member listed =>
      release_succeeds (handled member (List.mem_of_mem_filter listed)) ..) fun _ => .pure _
  exact .bind marshals fun _ => .bind unmarshals fun _ => .bind releases fun _ => .pure _

variable {context : EmitContext} {interface : InterfaceType} {method : Method}

theorem customTypes_succeeds (isC : context.options.language = some .c)
    (expressible : context.Expressible) : Succeeds (customTypes context) := by
  have definitions : Succeeds (context.customTypes.mapM (definition context.types)) :=
    .mapM fun node listed => definition_succeeds fun part isPart =>
      handled_of_expressible isC (expressible.customTypes listed part isPart)
  have bodies : Succeeds (Code.forEach context.structs (functions context.types)) :=
    .forEach fun record listed => functions_succeeds expressible.sound fun member isMember =>
      handled_of_expressible isC (expressible.structMembers listed member isMember)
  exact .bind definitions fun _ => .bind bodies fun _ => .pure _

theorem methodParameters_succeeds
    (handled : ∀ parameter ∈ method.parameters, Handled context.types parameter.type) :
    Succeeds (methodParameters context method) :=
  .bind (.mapM fun parameter listed => parameterDeclarators_succeeds (handled parameter listed))
    fun _ => .pure _

theorem proxyMethod_succeeds (sound : context.types.Sound)
    (found : context.program.interfaceOf? context.unit = some interface)
    (handled : ∀ parameter ∈ method.parameters, Handled context.types parameter.type) :
    Succeeds (proxyMethod context method) := by
  refine .bind (EmitContext.interface_succeeds found) fun _ =>
    .bind (methodParameters_succeeds handled) fun _ => .bind (.mapM ?_) fun _ => .bind (.mapM ?_)
      fun _ => .pure _
  · intro parameter listed
    exact write_succeeds sound (handled parameter (List.mem_of_mem_filter listed)) ..
  · intro parameter listed
    exact readResult_succeeds sound (handled parameter (List.mem_of_mem_filter listed)) ..

theorem readCapacities_succeeds {types : TypeArena} (recovery : Recovery) (data flag : String)
    (limited : ∀ parameter ∈ types.capacityParameters method, Handled types parameter.type) :
    Succeeds (readCapacities types recovery data flag method) :=
  .bind (.mapM fun parameter listed =>
    .bind (capacityUnit_succeeds (limited parameter listed)) fun _ => .pure _) fun _ => .pure _

theorem stubMethod_succeeds (sound : context.types.Sound)
    (handled : ∀ parameter ∈ method.parameters, Handled context.types parameter.type) :
    Succeeds (stubMethod context method) := by
  have inward : ∀ parameter ∈ method.inParameters, Handled context.types parameter.type :=
    fun parameter listed => handled parameter (List.mem_of_mem_filter listed)
  have outward : ∀ parameter ∈ method.outParameters, Handled context.types parameter.type :=
    fun parameter listed => handled parameter (List.mem_of_mem_filter listed)
  have limited : ∀ parameter ∈ context.types.capacityParameters method,
      Handled context.types parameter.type :=
    fun parameter listed => outward parameter (List.mem_of_mem_filter listed)
  have holders : Succeeds (method.parameters.mapM (localVariables context.types)) :=
    .mapM fun parameter listed => localVariables_succeeds (handled parameter listed)
  unfold stubMethod
  refine .bind holders fun _ => ?_
  extract_lets _ rest
  have continues : ∀ capacities, Succeeds (rest capacities) := by
    intro capacities
    refine .bind (.mapM ?_) fun _ => .bind (.mapM ?_) fun _ => .bind (.mapM ?_) fun _ =>
      .bind (.forEach ?_) fun _ => .pure _
    · exact fun parameter listed => read_succeeds sound (inward parameter listed) ..
    · exact fun parameter listed =>
        .bind (capacityUnit_succeeds (limited parameter listed)) fun _ => .pure _
    · exact fun parameter listed => write_succeeds sound (outward parameter listed) ..
    · exact fun parameter listed =>
        release_succeeds (handled parameter (List.mem_of_mem_filter listed)) ..
  split
  · exact .bind (readCapacities_succeeds _ _ _ limited) continues
  · exact continues []

/-- The parameters of the methods of an expressible unit can be handled. -/
theorem parameters_handled (isC : context.options.language = some .c)
    (expressible : context.Expressible)
    (found : context.program.interfaceOf? context.unit = some interface)
    (listed : method ∈ interface.methods) :
    ∀ parameter ∈ method.parameters, Handled context.types parameter.type :=
  fun parameter isParameter => handled_of_expressible isC
    (expressible.parameters interface found method listed parameter isParameter)

theorem interfaceHeader_succeeds (isC : context.options.language = some .c)
    (expressible : context.Expressible)
    (found : context.program.interfaceOf? context.unit = some interface) :
    Succeeds (interfaceHeader context) := by
  refine EmitContext.methods_bind found fun methods listed => .bind (.mapM ?_) fun _ => .pure _
  intro entry isEntry
  have handled :=
    parameters_handled isC expressible found (listed entry.2 (List.mem_map_of_mem isEntry))
  exact .bind (methodParameters_succeeds handled) fun _ => .pure _

theorem service_succeeds (isC : context.options.language = some .c)
    (expressible : context.Expressible)
    (found : context.program.interfaceOf? context.unit = some interface) :
    Succeeds (service context) := by
  refine EmitContext.methods_bind found fun methods listed => .bind (.mapM ?_) fun _ => .pure _
  intro method isMethod
  have handled := parameters_handled isC expressible found (listed method isMethod)
  exact .bind (methodParameters_succeeds handled) fun _ => .pure _

theorem proxy_succeeds (isC : context.options.language = some .c)
    (expressible : context.Expressible)
    (found : context.program.interfaceOf? context.unit = some interface) :
    Succeeds (proxy context) := by
  refine EmitContext.methods_bind found fun methods listed => .bind (.mapM ?_) fun _ => .pure _
  intro method isMethod
  have handled := parameters_handled isC expressible found (listed method isMethod)
  exact proxyMethod_succeeds expressible.sound found handled

theorem stub_succeeds (isC : context.options.language = some .c) (expressible : context.Expressible)
    (found : context.program.interfaceOf? context.unit = some interface) :
    Succeeds (stub context) := by
  refine EmitContext.methods_bind found fun methods listed => .bind (.mapM ?_) fun _ => .pure _
  intro method isMethod
  have handled := parameters_handled isC expressible found (listed method isMethod)
  exact stubMethod_succeeds expressible.sound handled

end Files

end DriverIdl.CCode
