import DriverIdl.Emit.Declarations.Java
import DriverIdl.Emit.Proxy.Java
import DriverIdl.Proofs.Emit.Expressible

/-!
# Java code for expressible types

Java has all types but unions and queues.  Containers nest, so the walks over a type go by induction
on the levels that are left, and every element stays expressible.
-/

namespace DriverIdl.JavaCode

section Statements

variable {context : EmitContext} {type : TypeId}

/-- An expressible type of a context. -/
abbrev Renders (context : EmitContext) (type : TypeId) : Prop :=
  Expressible context.options context.types type

theorem not_union (isJava : context.options.language = some .java) (renders : Renders context type)
    (record : RecordType) : context.types.node type ≠ .union record := by
  intro node
  simpa [supportFault?, isJava, node] using renders.supported

theorem not_queue (isJava : context.options.language = some .java) (renders : Renders context type)
    (element : TypeId) : context.types.node type ≠ .queue element := by
  intro node
  simpa [supportFault?, isJava, node] using renders.supported

theorem typeWithin_succeeds (isJava : context.options.language = some .java) (levels : Nat) :
    ∀ (boxed : Bool) (type : TypeId), Renders context type →
      Succeeds (typeWithin context levels boxed type) := by
  induction levels with
  | zero => exact fun boxed type _ => .pure ""
  | succ levels ih =>
      intro boxed type renders
      have inner : ∀ boxed, ∀ element ∈ (context.types.node type).elements,
          Succeeds (typeWithin context levels boxed element) :=
        fun boxed element holds => ih boxed element (renders.element holds)
      rw [typeWithin]
      cases node : context.types.node type with
      | union record => exact absurd node (not_union isJava renders record)
      | queue element => exact absurd node (not_queue isJava renders element)
      | array element =>
          exact .bind (inner false element (by simp [node, TypeNode.elements])) fun _ => .pure _
      | list element =>
          exact .bind (inner true element (by simp [node, TypeNode.elements])) fun _ => .pure _
      | map key value =>
          exact .bind (inner true key (by simp [node, TypeNode.elements])) fun _ =>
            .bind (inner true value (by simp [node, TypeNode.elements])) fun _ => .pure _
      | _ => exact .pure _

theorem typeName_succeeds (isJava : context.options.language = some .java)
    (renders : Renders context type) : Succeeds (typeName context type) :=
  typeWithin_succeeds isJava _ false type renders

theorem boxedName_succeeds (isJava : context.options.language = some .java)
    (renders : Renders context type) : Succeeds (boxedName context type) :=
  typeWithin_succeeds isJava _ true type renders

theorem writeWithin_succeeds (isJava : context.options.language = some .java) (parcel : String)
    (levels : Nat) :
    ∀ (type : TypeId) (value : String) (depth : Nat), Renders context type →
      Succeeds (writeWithin context parcel levels type value depth) := by
  induction levels with
  | zero => exact fun type value depth _ => .pure []
  | succ levels ih =>
      intro type value depth renders
      have inner : ∀ element ∈ (context.types.node type).elements, Renders context element :=
        fun element holds => renders.element holds
      rw [writeWithin]
      cases node : context.types.node type with
      | union record => exact absurd node (not_union isJava renders record)
      | queue element => exact absurd node (not_queue isJava renders element)
      | primitive primitive => cases primitive <;> exact .pure _
      | enum declared =>
          dsimp only
          split <;> exact .pure _
      | array element =>
          have element := inner element (by simp [node, TypeNode.elements])
          exact .bind (typeName_succeeds isJava element) fun _ =>
            .bind (ih _ _ _ element) fun _ => .pure _
      | list element =>
          have element := inner element (by simp [node, TypeNode.elements])
          exact .bind (boxedName_succeeds isJava element) fun _ =>
            .bind (ih _ _ _ element) fun _ => .pure _
      | map key value =>
          have key := inner key (by simp [node, TypeNode.elements])
          have value := inner value (by simp [node, TypeNode.elements])
          exact .bind (boxedName_succeeds isJava key) fun _ =>
            .bind (boxedName_succeeds isJava value) fun _ => .bind (ih _ _ _ key) fun _ =>
              .bind (ih _ _ _ value) fun _ => .pure _
      | _ => exact .pure _

theorem readWithin_succeeds (isJava : context.options.language = some .java) (leave parcel : String)
    (levels : Nat) :
    ∀ (type : TypeId) (target : String) (depth : Nat), Renders context type →
      Succeeds (readWithin context leave parcel levels type target depth) := by
  induction levels with
  | zero => exact fun type target depth _ => .pure []
  | succ levels ih =>
      intro type target depth renders
      have inner : ∀ element ∈ (context.types.node type).elements, Renders context element :=
        fun element holds => renders.element holds
      rw [readWithin]
      cases node : context.types.node type with
      | union record => exact absurd node (not_union isJava renders record)
      | queue element => exact absurd node (not_queue isJava renders element)
      | primitive primitive => cases primitive <;> exact .pure _
      | enum declared =>
          dsimp only
          split <;> exact .pure _
      | struct record => exact .bind (typeName_succeeds isJava renders) fun _ => .pure _
      | sequenceable declared => exact .bind (typeName_succeeds isJava renders) fun _ => .pure _
      | array element =>
          have element := inner element (by simp [node, TypeNode.elements])
          exact .bind (typeName_succeeds isJava element) fun _ =>
            .bind (ih _ _ _ element) fun _ => .pure _
      | list element =>
          have element := inner element (by simp [node, TypeNode.elements])
          exact .bind (typeName_succeeds isJava element) fun _ =>
            .bind (ih _ _ _ element) fun _ => .pure _
      | map key value =>
          have key := inner key (by simp [node, TypeNode.elements])
          have value := inner value (by simp [node, TypeNode.elements])
          exact .bind (typeName_succeeds isJava key) fun _ => .bind (ih _ _ _ key) fun _ =>
            .bind (typeName_succeeds isJava value) fun _ => .bind (ih _ _ _ value) fun _ => .pure _
      | interface declared => exact .pure _

end Statements

section Files

variable {context : EmitContext} {interface : InterfaceType} {method : Method}

theorem structClass_succeeds (isJava : context.options.language = some .java) {record : RecordType}
    (renders : ∀ member ∈ record.members, Renders context member.type) :
    Succeeds (structClass context record) := by
  refine .bind (.mapM ?_) fun _ => .bind (.forEach ?_) fun _ => .bind (.forEach ?_) fun _ => .pure _
  · exact fun member listed =>
      .bind (typeName_succeeds isJava (renders member listed)) fun _ => .pure _
  · exact fun member listed => writeWithin_succeeds isJava _ _ _ _ _ (renders member listed)
  · exact fun member listed => readWithin_succeeds isJava _ _ _ _ _ _ (renders member listed)

theorem customTypes_succeeds (isJava : context.options.language = some .java)
    (expressible : context.Expressible) : Succeeds (customTypes context) := by
  refine .bind (.forEach ?_) fun _ => .pure _
  intro node listed
  have renders := expressible.customTypes listed
  cases node with
  | struct record =>
      have members : ∀ member ∈ record.members, Renders context member.type :=
        fun member isMember => renders member.type (List.mem_map_of_mem isMember)
      exact .bind (structClass_succeeds isJava members) fun _ => .pure _
  | _ => exact .pure _

theorem parameterDeclarator_succeeds (isJava : context.options.language = some .java)
    {parameter : Parameter} (renders : Renders context parameter.type) :
    Succeeds (parameterDeclarator context parameter) := by
  refine .bind (typeName_succeeds isJava renders) fun _ => ?_
  split <;> exact .pure _

theorem signature_succeeds (isJava : context.options.language = some .java)
    (renders : ∀ parameter ∈ method.parameters, Renders context parameter.type) :
    Succeeds (signature context method) :=
  .bind (.mapM fun parameter listed => parameterDeclarator_succeeds isJava (renders parameter listed))
    fun _ => .pure _

theorem readResult_succeeds (isJava : context.options.language = some .java) (reply : String)
    {parameter : Parameter} (renders : Renders context parameter.type) :
    Succeeds (readResult context reply parameter) := by
  have name := typeName_succeeds isJava renders
  unfold readResult
  split
  · exact readWithin_succeeds isJava _ _ _ _ _ _ renders
  · exact .pure _
  · exact .bind name fun _ => .bind (readWithin_succeeds isJava _ _ _ _ _ _ renders) fun _ => .pure _
  · exact .bind name fun _ => .bind (readWithin_succeeds isJava _ _ _ _ _ _ renders) fun _ => .pure _

theorem proxyMethod_succeeds (isJava : context.options.language = some .java) (oneway : Bool)
    (renders : ∀ parameter ∈ method.parameters, Renders context parameter.type) :
    Succeeds (proxyMethod context oneway method) := by
  refine .bind (signature_succeeds isJava renders) fun _ => .bind (.forEach ?_) fun _ =>
    .bind (.forEach ?_) fun _ => .pure _
  · exact fun parameter listed =>
      writeWithin_succeeds isJava _ _ _ _ _ (renders parameter (List.mem_of_mem_filter listed))
  · exact fun parameter listed =>
      readResult_succeeds isJava _ (renders parameter (List.mem_of_mem_filter listed))

theorem interfaceFile_succeeds (isJava : context.options.language = some .java)
    (expressible : context.Expressible)
    (found : context.program.interfaceOf? context.unit = some interface) :
    Succeeds (interfaceFile context) := by
  refine EmitContext.methods_bind found fun methods listed => .bind (.forEach ?_) fun _ => .pure _
  intro entry isEntry
  have renders := expressible.parameters interface found entry.2
    (listed entry.2 (List.mem_map_of_mem isEntry))
  exact .bind (signature_succeeds isJava renders) fun _ => .pure _

theorem proxy_succeeds (isJava : context.options.language = some .java)
    (expressible : context.Expressible)
    (found : context.program.interfaceOf? context.unit = some interface) :
    Succeeds (proxy context) := by
  refine .bind (EmitContext.interface_succeeds found) fun _ =>
    EmitContext.methods_bind found fun methods listed => .bind (.forEach ?_) fun _ => .pure _
  intro method isMethod
  have renders := expressible.parameters interface found method (listed method isMethod)
  exact .bind (proxyMethod_succeeds isJava _ renders) fun _ => .pure _

end Files

end DriverIdl.JavaCode
