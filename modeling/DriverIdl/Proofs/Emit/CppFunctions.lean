import DriverIdl.Emit.Declarations.Cpp
import DriverIdl.Emit.Proxy.Cpp
import DriverIdl.Emit.Stub.Cpp
import DriverIdl.Proofs.Emit.CppReading

/-!
# What C++ functions call

The proxy of a method writes the token of its interface, a flag if there are results with capacities,
and the arguments; then it reads the results.  The stub reads the flag and the arguments and writes the
results.  Only if the flag is set does it read capacities, which a proxy in C announces.
-/

namespace DriverIdl

open CodeLexeme

namespace CppCode

section Shapes

/-- What a value is written and read with. -/
def valueShape (context : EmitContext) (type : TypeId) : List WireCall :=
  wireShape context (context.types.size + 1) type

/-- What tells if capacities follow. -/
def flagShape (context : EmitContext) (method : Method) : List WireCall :=
  if context.types.needsCapacityFlag method then [⟨.plain "Bool".toList, 0⟩] else []

/-- What the request of a method is written and read with, but for the token and the capacities. -/
def requestShape (context : EmitContext) (method : Method) : List WireCall :=
  flagShape context method ++
    method.inParameters.flatMap fun parameter => valueShape context parameter.type

/-- What the reply of a method is written and read with. -/
def replyShape (context : EmitContext) (method : Method) : List WireCall :=
  method.outParameters.flatMap fun parameter => valueShape context parameter.type

/-- What a struct is written and read with. -/
def blockShape (context : EmitContext) (record : RecordType) : List WireCall :=
  record.members.flatMap fun member => valueShape context member.type

variable {program : Program} {unit : CompiledUnit}

/-- What a value is written and read with does not depend on the options of a run. -/
theorem wireShape_of_options (first second : Options) (levels : Nat) (type : TypeId) :
    wireShape ⟨first, program, unit⟩ levels type = wireShape ⟨second, program, unit⟩ levels type := by
  induction levels generalizing type with
  | zero => rfl
  | succ levels ih =>
      simp only [wireShape, EmitContext.types, ih]
      rfl

theorem requestShape_of_options (first second : Options) (method : Method) :
    requestShape ⟨first, program, unit⟩ method = requestShape ⟨second, program, unit⟩ method := by
  simp only [requestShape, valueShape, wireShape_of_options first second]
  rfl

theorem replyShape_of_options (first second : Options) (method : Method) :
    replyShape ⟨first, program, unit⟩ method = replyShape ⟨second, program, unit⟩ method := by
  simp only [replyShape, valueShape, wireShape_of_options first second]
  rfl

end Shapes

section Functions

variable {context : EmitContext} {skip : Option (List Char)} {parcel : List Char}
variable {method : Method} {buffer leave : String}

theorem tells_invalidParameter : Tells parcel invalidParameter [] := tells_iff.mpr (by simp +decide [invalidParameter])

theorem tame_methodParameters (spelled : context.Spelled) (isMethod : method.Spelled) :
    Tame (methodParameters context method) := by
  apply tame_intercalate (by decide)
  intro text listed
  obtain ⟨parameter, isParameter, rfl⟩ := List.mem_map.mp listed
  have isName : IsRun parameter.name := (isMethod.parameters parameter isParameter).isRun
  have isType : Tame (typeName context parameter.type) :=
    (isPhrase_typeName spelled.program parameter.type).tame
  unfold parameterDeclarator
  split
  · simp +decide [toString, isName, isType]
  · split <;> simp +decide [toString, isName, isType]

/-- Leaves with the error code of a failed call. -/
theorem emits_checkCall {result : String} (isResult : IsRun result) :
    Emits skip parcel (checkCall result) [] := by
  have failed : Tells parcel s!"{result} != HDF_SUCCESS" [] :=
    tells_iff.mpr (by simp +decide [toString, isResult])
  exact .reported "%\x7bpublic\x7ds failed, error code is %\x7bpublic\x7dd" (by decide) (by decide)
    failed (isResult.not_skips ' ' (by simp [toString]) rfl) isResult (tells_return isResult)
    (by simp [toString])

/-- A function that leaves if an object is missing. -/
theorem emits_refusal {object message : String} (isObject : IsRun object) (tame : Tame message) :
    Emits skip parcel
      (Code.refusal s!"{object} == nullptr" message ["return HDF_ERR_INVALID_OBJECT;"]) [] := by
  have told : Tells parcel s!"{object} == nullptr" [] :=
    tells_iff.mpr (by simp +decide [toString, isObject])
  have left : Tells parcel "return HDF_ERR_INVALID_OBJECT;" [] := tells_iff.mpr (by simp +decide)
  exact .refusal told (isObject.not_skips ' ' (by simp [toString]) rfl) tame (by simpa using left)

theorem emits_values {parameters : List Parameter} (spelled : context.Spelled)
    (words : ∀ parameter ∈ parameters, Text.IsWord parameter.name)
    (isParcel : Callee.IsParcel parcel) (isBuffer : IsRun buffer) :
    Emits skip parcel
        (Code.paragraphs (parameters.map fun parameter =>
          write context invalidParameter buffer parameter.type parameter.name))
        (Callee.on parcel buffer
          (parameters.flatMap fun parameter => valueShape context parameter.type)) ∧
      Emits skip parcel
        (Code.paragraphs (parameters.map fun parameter =>
          read context invalidParameter buffer parameter.type parameter.name))
        (Callee.on parcel buffer
          (parameters.flatMap fun parameter => valueShape context parameter.type)) := by
  rw [← Callee.on_flatMap]
  exact ⟨.paragraphs_map fun parameter listed => emits_writeWithin spelled.program isParcel isBuffer
      tells_invalidParameter (.word (words parameter listed)),
    .paragraphs_map fun parameter listed => emits_readWithin spelled.program isParcel isBuffer
      tells_invalidParameter (.word (words parameter listed))⟩

end Functions

section Proxies

variable {context : EmitContext} {skip : Option (List Char)} {parcel : List Char} {method : Method}

/-- What a proxy does before it writes arguments. -/
theorem emits_proxyStart {data reply option flags : String} (spelled : context.Spelled)
    (isParcel : Callee.IsParcel parcel) (isData : IsRun data) (isReply : IsRun reply)
    (isOption : IsRun option) (isFlags : IsRun flags) :
    Emits none parcel
      (Code.paragraphs
        [Code.lines [s!"MessageParcel {data};", s!"MessageParcel {reply};",
            s!"MessageOption {option}(MessageOption::{flags});"],
          leaveIf invalidParameter s!"!{data}.WriteInterfaceToken({context.name}::GetDescriptor())"
            "write interface descriptor",
          Code.when (context.types.needsCapacityFlag method)
            (leaveIf invalidParameter s!"!{data}.WriteBool(false)" "write flag of memory setting")])
      (Callee.on parcel data (⟨.plain "InterfaceToken".toList, 0⟩ :: flagShape context method)) := by
  have leaves := @tells_invalidParameter parcel
  have argument : IsRun ("MessageOption::" ++ flags) := .append (by decide) isFlags
  have declared : Tells parcel s!"MessageParcel {data};" [] ∧ Tells parcel s!"MessageParcel {reply};" [] ∧
      Tells parcel s!"MessageOption {option}(MessageOption::{flags});" [] := by
    refine ⟨tells_iff.mpr (by simp +decide [toString, isData]),
      tells_iff.mpr (by simp +decide [toString, isReply]), ?_⟩
    have ended : Tells parcel ";" [] := tells_iff.mpr (by simp +decide)
    exact .applied (.behind (by decide : IsRun "MessageOption") (.of_isRun isOption)) argument
      (isParcel.ne_of_mem (by simp : ':' ∈ ("MessageOption::" ++ flags).toList) rfl) ended
      (by simp [toString])
  have token : Tells parcel s!"!{data}.WriteInterfaceToken({context.name}::GetDescriptor())" _ :=
    tells_write (by decide : IsKind "InterfaceToken") isData (tells_descriptor spelled.named.isRun)
      (by simp [toString, Callee.writing])
  have unset : Tells parcel "false" [] := tells_iff.mpr (by simp +decide)
  have flag : Tells parcel s!"!{data}.WriteBool(false)" _ :=
    tells_write (by decide : IsKind "Bool") isData unset (by simp [toString, Callee.writing])
  have announced : Emits none parcel
      (Code.when (context.types.needsCapacityFlag method)
        (leaveIf invalidParameter s!"!{data}.WriteBool(false)" "write flag of memory setting"))
      (Callee.on parcel data (flagShape context method)) := by
    rw [flagShape]
    cases context.types.needsCapacityFlag method with
    | false => exact Callee.on_nil.symm ▸ .nil
    | true => exact emits_check leaves (by decide) flag (by simp [toString])
  have created : Emits none parcel
      (Code.lines [s!"MessageParcel {data};", s!"MessageParcel {reply};",
        s!"MessageOption {option}(MessageOption::{flags});"]) [] := .lines (by simpa using declared)
  have identified := @emits_check none parcel data invalidParameter _ "write interface descriptor" _
    leaves (by decide) token (by simp [toString])
  have whole := created.paragraphs_cons (identified.paragraphs_cons (.paragraphs_singleton announced))
  rwa [List.nil_append, ← Callee.on_append] at whole

/-- The request is sent to the remote object. -/
theorem emits_sendRequest {result command data reply option : String} (isResult : IsRun result)
    (isCommand : IsRun command) (isData : IsRun data) (isReply : IsRun reply)
    (isOption : IsRun option) :
    Emits skip parcel
      (Code.paragraphs
        [Code.line "sptr<IRemoteObject> remote = Remote();" ++
            Code.refusal "remote == nullptr" "invalid remote object!"
              ["return HDF_ERR_INVALID_OBJECT;"],
          Code.line
              s!"int32_t {result} = remote->SendRequest({command}, {data}, {reply}, {option});" ++
            checkCall result]) [] := by
  have found : Tells parcel "sptr<IRemoteObject> remote = Remote();" [] :=
    tells_iff.mpr (by simp +decide)
  have sent : Tells parcel
      s!"int32_t {result} = remote->SendRequest({command}, {data}, {reply}, {option});" [] :=
    tells_iff.mpr (by simp +decide [toString, isResult, isCommand, isData, isReply, isOption])
  exact ((Emits.line found).append (emits_refusal (by decide : IsRun "remote") (by decide))).paragraphs_cons
    (.paragraphs_singleton ((Emits.line sent).append (emits_checkCall isResult)))

/-- The proxy of a method writes its request and reads its reply. -/
theorem wireCalls_proxyMethod (interface : InterfaceType) (spelled : context.Spelled)
    (isMethod : method.Spelled) :
    wireCalls none (context.localPrefix ++ "Data") (Code.text (proxyMethod context interface method)) =
        ⟨.plain "InterfaceToken".toList, 0⟩ :: requestShape context method ∧
      wireCalls none (context.localPrefix ++ "Reply")
          (Code.text (proxyMethod context interface method)) = replyShape context method := by
  have isData : IsRun s!"{context.localPrefix}Data" := spelled.isRun_local (by decide)
  have isReply : IsRun s!"{context.localPrefix}Reply" := spelled.isRun_local (by decide)
  have isOption : IsRun s!"{context.localPrefix}Option" := spelled.isRun_local (by decide)
  have isResult : IsRun s!"{context.localPrefix}Ret" := spelled.isRun_local (by decide)
  have isBase : IsRun context.base := spelled.isWord_base.isRun
  have isName : IsRun method.name := isMethod.named.isRun
  have isCommand := spelled.isRun_commandName isMethod
  unfold proxyMethod
  apply calls_of_parcels spelled
  · have isParameters := tame_methodParameters spelled isMethod
    simp +decide [toString, isBase, isName, isParameters]
  · intro parcel isParcel
    have isFlags : IsRun (if interface.isOneway method then "TF_ASYNC" else "TF_SYNC") := by
      split <;> decide
    have started := @emits_proxyStart context parcel method _ _ _ _ spelled isParcel isData isReply
      isOption isFlags
    have sent := (@emits_values context none parcel _ method.inParameters spelled
      (fun parameter listed => isMethod.parameters parameter (mem_of_mem_inParameters listed)) isParcel
      isData).1
    have received := (@emits_values context none parcel _ method.outParameters spelled
      (fun parameter listed => isMethod.parameters parameter (mem_of_mem_outParameters listed)) isParcel
      isReply).2
    have called := @emits_sendRequest none parcel _ _ _ _ _ isResult isCommand isData isReply isOption
    have whole := ((started.paragraphs_append sent).paragraphs_append called).paragraphs_append received
    rw [List.append_nil, ← Callee.on_append] at whole
    exact whole.append_quiet (.line (tells_return isResult))

end Proxies

section Stubs

variable {context : EmitContext} {skip : Option (List Char)} {parcel : List Char} {method : Method}

theorem tells_largest {type : TypeId} (spelled : context.Spelled) {capacity : String}
    (isCapacity : IsRun capacity) :
    let largest := match context.types.element? type with
      | some element => s!"HDI_BUFF_MAX_SIZE / sizeof({typeName context element})"
      | none => "HDI_BUFF_MAX_SIZE"
    Tells parcel s!"{capacity} > {largest}" [] := by
  intro largest
  cases isElement : context.types.element? type with
  | none =>
      simp only [largest, isElement]
      exact tells_iff.mpr (by simp +decide [toString, isCapacity])
  | some element =>
      simp only [largest, isElement]
      have told := @tells_exceeds parcel _ _ isCapacity (isPhrase_typeName spelled.program element)
      have same : s!"{capacity} > HDI_BUFF_MAX_SIZE / sizeof({typeName context element})" =
          capacity ++ " > " ++ s!"HDI_BUFF_MAX_SIZE / sizeof({typeName context element})" :=
        String.toList_injective (by simp [toString])
      rwa [same] at told

theorem emits_readCapacity {name capacity largest data : String} (isName : IsRun name)
    (isCapacity : IsRun capacity) (isData : IsRun data)
    (told : Tells parcel s!"{capacity} > {largest}" []) :
    Emits skip parcel
      (leaveIf invalidParameter s!"!{data}.ReadUint32({capacity})" s!"read {name} capacity" ++
        leaveIf invalidParameter s!"{capacity} > {largest}" s!"check {name} capacity")
      (Callee.on parcel data [⟨.plain "Uint32".toList, 0⟩]) := by
  have leaves := @tells_invalidParameter parcel
  have isRead : Tame s!"read {name} capacity" := by simp +decide [toString, isName]
  have isCheck : Tame s!"check {name} capacity" := by simp +decide [toString, isName]
  have read : Tells parcel s!"!{data}.ReadUint32({capacity})" _ :=
    tells_read (by decide : IsKind "Uint32") isData (IsPhrase.of_isRun isCapacity).tells
      (by simp [toString, Callee.reading])
  exact (emits_check leaves isRead read (by simp [toString])).append_quiet
    (emits_leaveIf leaves isCheck (isCapacity.not_skips ' ' (by simp [toString]) rfl) told)

/-- Capacities are read only in the block of the flag. -/
theorem emits_readCapacities {data flag : String} {parameters : List Parameter} {block : Block}
    (spelled : context.Spelled) (words : ∀ parameter ∈ parameters, Text.IsWord parameter.name)
    (isData : IsRun data) (isFlag : IsRun flag)
    (opens : Opens skip parcel s!"if ({flag})" block []) :
    Emits skip parcel (readCapacities context data flag parameters)
      (Callee.on parcel data (⟨.plain "Bool".toList, 0⟩ ::
        block.around (parameters.flatMap fun _ => [⟨.plain "Uint32".toList, 0⟩]))) := by
  have leaves := @tells_invalidParameter parcel
  have unset : Tells parcel s!"bool {flag} = false;" [] :=
    tells_iff.mpr (by simp +decide [toString, isFlag])
  have read : Tells parcel s!"!{data}.ReadBool({flag})" _ :=
    tells_read (by decide : IsKind "Bool") isData (IsPhrase.of_isRun isFlag).tells
      (by simp [toString, Callee.reading])
  have flagged := @emits_check skip parcel data invalidParameter _ "read flag of memory setting" _
    leaves (by decide) read (by simp [toString])
  have assumed : Emits skip parcel (Code.lines (parameters.map fun parameter =>
      s!"uint32_t {parameter.name}Cap = HDI_BUFF_MAX_SIZE;")) [] := by
    apply Emits.lines
    intro text listed
    obtain ⟨parameter, isParameter, rfl⟩ := List.mem_map.mp listed
    have isName : IsRun parameter.name := (words parameter isParameter).isRun
    exact tells_iff.mpr (by simp +decide [toString, isName])
  have inside := Emits.braced opens (Emits.flatMap fun (parameter : Parameter)
      (listed : parameter ∈ parameters) =>
    have isName : IsRun parameter.name := (words parameter listed).isRun
    have isCapacity : IsRun s!"{parameter.name}Cap" := .append isName (by decide)
    @emits_readCapacity skip parcel parameter.name s!"{parameter.name}Cap" _ data isName isCapacity isData
      (@tells_largest context parcel parameter.type spelled _ isCapacity))
  have all := (((Emits.line unset).quiet_append flagged).append_quiet assumed).append inside
  have none : WireCall.ofCallees [] = [] := rfl
  rwa [Callee.on_flatMap, ← Callee.on_around, none, List.nil_append, ← Callee.on_append] at all

theorem emits_checkCapacity {parameter : Parameter} (isWord : Text.IsWord parameter.name)
    (isParcel : Callee.IsParcel parcel) :
    Emits skip parcel (checkCapacity context.types parameter) [] := by
  have isName : IsRun parameter.name := isWord.isRun
  have operand : Operand parameter.name := .word isWord
  have isMessage : Tame s!"check {parameter.name} capacity" := by simp +decide [toString, isName]
  have checked : ∀ {comparison excess : String}, Tells parcel comparison [] →
      excess.toList = parameter.name.toList ++ (".size".toList ++ '(' :: ')' :: comparison.toList) →
      Emits skip parcel
        (leaveIf invalidParameter excess s!"check {parameter.name} capacity") [] := by
    intro comparison excess told spelled
    have size : Tells parcel (parameter.name ++ ".size") [] :=
      operand.tells isParcel (by decide : isSilent ".size".toList = true) (by simp)
    exact emits_leaveIf tells_invalidParameter isMessage
      (operand.not_skips (by decide : isSilent ".size".toList = true) spelled rfl)
      (.nullary size told (by simp [spelled]))
  rw [checkCapacity]
  split
  · have told : Tells parcel s!" >= {parameter.name}Cap" [] :=
      tells_iff.mpr (by simp +decide [toString, isName])
    exact checked told (by simp [toString])
  · have told : Tells parcel s!" > {parameter.name}Cap" [] :=
      tells_iff.mpr (by simp +decide [toString, isName])
    exact checked told (by simp [toString])

/-- Room is made for results if the flag is set. -/
theorem emits_reserves {flag : String} {parameters : List Parameter} {block : Block}
    (words : ∀ parameter ∈ parameters, Text.IsWord parameter.name) (isParcel : Callee.IsParcel parcel)
    (opens : Opens skip parcel s!"if ({flag})" block []) :
    Emits skip parcel (parameters.flatMap fun parameter =>
      Code.when (context.types.element? parameter.type).isSome
        (Code.branch flag [s!"{parameter.name}.reserve({parameter.name}Cap);"])) [] := by
  have each : ∀ parameter ∈ parameters, Emits skip parcel
      (Code.when (context.types.element? parameter.type).isSome
        (Code.branch flag [s!"{parameter.name}.reserve({parameter.name}Cap);"])) [] := by
    intro parameter listed
    have isWord := words parameter listed
    have isCapacity : IsRun (parameter.name ++ "Cap") := .append isWord.isRun (by decide)
    have closed : Tells parcel (parameter.name ++ "Cap);") [] :=
      tells_iff.mpr (by simp +decide [isWord.isRun])
    have reserved : Tells parcel s!"{parameter.name}.reserve({parameter.name}Cap);" [] :=
      tells_change (.word isWord) isParcel (by decide : IsRun "reserve") (by decide) closed
        (by simp [toString])
    have statements : Emits skip parcel
        (Code.lines [s!"{parameter.name}.reserve({parameter.name}Cap);"]) [] :=
      .lines (by simpa using reserved)
    have inside := Emits.braced opens statements
    have quiet : block.around [] = [] := by cases block <;> rfl
    rw [quiet] at inside
    cases (context.types.element? parameter.type).isSome with
    | false => exact .nil
    | true => exact inside
  have all := Emits.flatMap each
  rwa [List.flatMap_eq_nil_iff.mpr fun _ _ => rfl] at all

theorem emits_callService {result name : String} {names : List String} (isResult : IsRun result)
    (isWord : Text.IsWord name) (words : ∀ name ∈ names, Text.IsWord name) :
    let passed := String.intercalate ", " names
    Emits skip parcel
      (Code.line s!"int32_t {result} = impl_->{name}({passed});" ++ checkCall result) [] := by
  intro passed
  have unqualified : ':' ∉ name.toList := fun inside => absurd (isWord.2 ':' inside) (by decide)
  have isFunction : IsRun ("impl_->" ++ name) := .append (by decide) isWord.isRun
  have idle : Callee.ofFunction? ("impl_->" ++ name).toList = none :=
    Callee.ofFunction?_member (by rw [String.toList_append]; rfl) (by decide) (by simp)
      (by simp [unqualified])
  have told : Tells parcel passed [] := tells_arguments fun argument listed =>
    (IsPhrase.of_isRun (words argument listed).isRun).tells
  have ended : Tells parcel ";" [] := tells_iff.mpr (by simp +decide)
  have closed : Tells parcel (passed ++ ")" ++ ";") [] := .join ')' told ended (by simp) rfl
  have called : Tells parcel ("impl_->" ++ name ++ "(" ++ passed ++ ");") [] :=
    .idle isFunction idle closed (by simp)
  have declared : Tells parcel s!"int32_t {result} =" [] :=
    tells_iff.mpr (by simp +decide [toString, isResult])
  have line : Tells parcel s!"int32_t {result} = impl_->{name}({passed});" [] :=
    .join ' ' declared called (by simp [toString]) rfl
  exact (Emits.line line).append (emits_checkCall isResult)

/-- What a stub reads in front of its arguments. -/
theorem emits_announced {data flag : String} {block : Block} (spelled : context.Spelled)
    (isMethod : method.Spelled) (isData : IsRun data) (isFlag : IsRun flag)
    (opens : Opens skip parcel s!"if ({flag})" block []) :
    Emits skip parcel
      (Code.when (!(context.types.capacityParameters method).isEmpty)
        (readCapacities context data flag (context.types.capacityParameters method)))
      (Callee.on parcel data (flagShape context method ++
        block.around ((context.types.capacityParameters method).flatMap
          fun _ => [⟨.plain "Uint32".toList, 0⟩]))) := by
  rw [flagShape, TypeArena.needsCapacityFlag]
  cases limited : context.types.capacityParameters method with
  | nil =>
      have quiet : block.around [] = [] := by cases block <;> rfl
      simp only [List.flatMap_nil, quiet]
      exact Callee.on_nil.symm ▸ .nil
  | cons first rest =>
      rw [← limited]
      have read := @emits_readCapacities context skip parcel data flag
        (context.types.capacityParameters method) block spelled
        (fun parameter listed => isMethod.parameters _ (mem_of_mem_capacityParameters listed)) isData
        isFlag opens
      simpa [limited, Code.when] using read

/-- Arguments are read into variables of the stub. -/
theorem emits_readArguments {data : String} (spelled : context.Spelled) (isMethod : method.Spelled)
    (isParcel : Callee.IsParcel parcel) (isData : IsRun data) :
    Emits skip parcel
      (Code.paragraphs (method.inParameters.map fun parameter =>
        Code.line (variableDeclaration context parameter.type parameter.name) ++
          read context invalidParameter data parameter.type parameter.name))
      (Callee.on parcel data
        (method.inParameters.flatMap fun parameter => valueShape context parameter.type)) := by
  rw [← Callee.on_flatMap]
  apply Emits.paragraphs_map
  intro parameter listed
  have isWord := isMethod.parameters parameter (mem_of_mem_inParameters listed)
  exact (emits_variable spelled.program parameter.type isWord.isRun).quiet_append
    (emits_readWithin spelled.program isParcel isData tells_invalidParameter (.word isWord))

theorem emits_results {parameters : List Parameter} (spelled : context.Spelled)
    (words : ∀ parameter ∈ parameters, Text.IsWord parameter.name) :
    Emits skip parcel (Code.lines (parameters.map fun parameter =>
      variableDeclaration context parameter.type parameter.name)) [] := by
  have all := Emits.flatMap fun parameter listed =>
    @emits_variable skip parcel context _ spelled.program (Parameter.type parameter)
      (words parameter listed).isRun
  rw [List.flatMap_eq_nil_iff.mpr fun _ _ => rfl] at all
  have same : Code.lines (parameters.map fun parameter =>
      variableDeclaration context parameter.type parameter.name) =
        parameters.flatMap fun parameter =>
          Code.line (variableDeclaration context parameter.type parameter.name) := by
    rw [Code.lines, List.map_map]
    exact List.map_eq_flatMap
  rwa [same]

/-- The implementation is called, and its results are checked. -/
theorem emits_served {result : String} (isMethod : method.Spelled)
    (isParcel : Callee.IsParcel parcel) (isResult : IsRun result) :
    let passed := String.intercalate ", " (method.parameters.map Parameter.name)
    Emits skip parcel
      (Code.paragraphs
        [Code.refusal "impl_ == nullptr" "impl_ is nullptr!" ["return HDF_ERR_INVALID_OBJECT;"],
          Code.line s!"int32_t {result} = impl_->{method.name}({passed});" ++ checkCall result,
          (context.types.capacityParameters method).flatMap (checkCapacity context.types)]) [] := by
  have checked := Emits.flatMap fun parameter
      (listed : parameter ∈ context.types.capacityParameters method) =>
    @emits_checkCapacity context skip parcel parameter
      (isMethod.parameters parameter (mem_of_mem_capacityParameters listed)) isParcel
  rw [List.flatMap_eq_nil_iff.mpr fun _ _ => rfl] at checked
  have called := @emits_callService skip parcel result method.name (method.parameters.map Parameter.name)
    isResult isMethod.named (by
      intro name listed
      obtain ⟨parameter, isParameter, rfl⟩ := List.mem_map.mp listed
      exact isMethod.parameters parameter isParameter)
  exact (emits_refusal (by decide : IsRun "impl_") (by decide)).paragraphs_cons
    (called.paragraphs_cons (.paragraphs_singleton checked))

theorem tame_handlerParameters (isPrefix : Tame context.localPrefix) :
    Tame (handlerParameters context) := by
  unfold handlerParameters
  simp +decide [toString, isPrefix]

/-- What the stub of a method calls, if the block of its flag is of some kind. -/
theorem wireCalls_stubMethod_of_opens {reader : Option String} {block : Block}
    (spelled : context.Spelled) (isMethod : method.Spelled)
    (opens : ∀ parcel, Opens (reader.map String.toList) parcel
      ("if (" ++ s!"{context.localPrefix}MemSet" ++ ")") block []) :
    wireCalls reader (context.localPrefix ++ "Data") (Code.text (stubMethod context method)) =
        flagShape context method ++
          block.around ((context.types.capacityParameters method).flatMap
            fun _ => [⟨.plain "Uint32".toList, 0⟩]) ++
          (method.inParameters.flatMap fun parameter => valueShape context parameter.type) ∧
      wireCalls reader (context.localPrefix ++ "Reply") (Code.text (stubMethod context method)) =
        replyShape context method := by
  have isData : IsRun s!"{context.localPrefix}Data" := spelled.isRun_local (by decide)
  have isReply : IsRun s!"{context.localPrefix}Reply" := spelled.isRun_local (by decide)
  have isResult : IsRun s!"{context.localPrefix}Ret" := spelled.isRun_local (by decide)
  have isFlag : IsRun s!"{context.localPrefix}MemSet" := spelled.isRun_local (by decide)
  have isBase : IsRun context.base := spelled.isWord_base.isRun
  have isName : IsRun method.name := isMethod.named.isRun
  have limited : ∀ parameter ∈ context.types.capacityParameters method, Text.IsWord parameter.name :=
    fun parameter listed => isMethod.parameters parameter (mem_of_mem_capacityParameters listed)
  unfold stubMethod
  apply calls_of_parcels spelled
  · have isPrefix : Tame context.localPrefix := ((tame_append _ _).mp isData.tame).1
    have isHandler : Tame (handler context method) := by
      simp +decide [handler, toString, isBase, isName]
    simp +decide [isBase, isHandler, tame_handlerParameters isPrefix]
  · intro parcel isParcel
    have announced := @emits_announced context (reader.map String.toList) parcel method _ _ block spelled isMethod isData isFlag
      (opens parcel)
    have received := @emits_readArguments context (reader.map String.toList) parcel method _ spelled isMethod isParcel isData
    have declared := @emits_results context (reader.map String.toList) parcel method.outParameters spelled
      fun parameter listed => isMethod.parameters parameter (mem_of_mem_outParameters listed)
    have reserved := @emits_reserves context (reader.map String.toList) parcel _ _ block limited isParcel (opens parcel)
    have served := @emits_served context (reader.map String.toList) parcel method _ isMethod isParcel
      isResult
    have answered := (@emits_values context (reader.map String.toList) parcel _ method.outParameters
      spelled (fun parameter listed => isMethod.parameters parameter (mem_of_mem_outParameters listed))
      isParcel isReply).1
    have early := (((announced.paragraphs_cons received).append_quiet declared).append_quiet
      reserved).append_quiet .blank
    rw [← Callee.on_append] at early
    have whole := early.append (served.paragraphs_append answered)
    rw [List.nil_append] at whole
    exact whole.append_quiet (.line (tells_return isResult))

/-- The stub of a method reads its request, if what depends on the flag is left out, and writes its
reply. -/
theorem wireCalls_stubMethod (spelled : context.Spelled) (isMethod : method.Spelled) :
    wireCalls (some (context.localPrefix ++ "MemSet")) (context.localPrefix ++ "Data")
        (Code.text (stubMethod context method)) = requestShape context method ∧
      wireCalls none (context.localPrefix ++ "Reply") (Code.text (stubMethod context method)) =
        replyShape context method := by
  let flag := s!"{context.localPrefix}MemSet"
  have isFlag : IsRun flag := spelled.isRun_local (by decide)
  have head : s!"if ({flag})" = "if (" ++ flag ++ ")" := String.toList_injective (by simp [toString])
  have skipped := (@wireCalls_stubMethod_of_opens context method (some flag) .skipped spelled isMethod
    fun parcel => head ▸ Opens.skipped isFlag).1
  have kept := (@wireCalls_stubMethod_of_opens context method none .plain spelled isMethod
    fun parcel => head ▸ .if (IsPhrase.of_isRun isFlag).tells (not_skips_none _)).2
  rw [Block.around, List.append_nil] at skipped
  exact ⟨skipped, kept⟩

end Stubs

section Structs

variable {context : EmitContext} {record : RecordType}

/-- The two functions of a struct call the functions of its members in order. -/
theorem wireCalls_block (spelled : context.program.Spelled) (isRecord : record.Spelled) :
    wireCalls none "data" (Code.text (marshalling context record)) = blockShape context record ∧
      wireCalls none "data" (Code.text (unmarshalling context record)) =
        blockShape context record := by
  have isName : IsRun record.name := isRecord.named.isRun
  have isParcel := Callee.isParcel_block
  have leaves : Tells "data".toList "return false;" [] := tells_iff.mpr (by simp +decide)
  have returned : Tells "data".toList "return true;" [] := tells_iff.mpr (by simp +decide)
  have operand (member : Member) (listed : member ∈ record.members) :
      Operand s!"dataBlock.{member.name}" := .member (isRecord.members member listed)
  constructor
  · apply wireCalls_function
    · simp +decide [toString, isName]
    · have written := Emits.paragraphs_map fun member (listed : member ∈ record.members) =>
        @emits_writeWithin context none _ "data" "return false;" (context.types.size + 1) 0
          (Member.type member) _ spelled isParcel (by decide) leaves (operand member listed)
      rw [Callee.on_flatMap, Callee.on_self] at written
      exact written.append_quiet (.line returned)
  · apply wireCalls_function
    · simp +decide [toString, isName]
    · have read := Emits.paragraphs_map fun member (listed : member ∈ record.members) =>
        @emits_readWithin context none _ "data" "return false;" (context.types.size + 1) 0
          (Member.type member) _ spelled isParcel (by decide) leaves (operand member listed)
      rw [Callee.on_flatMap, Callee.on_self] at read
      exact read.append_quiet (.line returned)

end Structs

end CppCode

end DriverIdl
