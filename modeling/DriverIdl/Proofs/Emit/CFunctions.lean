import DriverIdl.Emit.Proxy.C
import DriverIdl.Emit.Stub.C
import DriverIdl.Proofs.Emit.CCalls

/-!
# What C functions call

The request of a method announces the capacities of its results, if there are any, and holds its
arguments; the reply holds its results.  The proxy writes the request and reads the reply, the stub
reads the request and writes the reply, and both call the same functions of the buffer for each part.
Results go to buffers of the caller on one side and to allocated ones on the other side, which does not
show in the calls.
-/

namespace DriverIdl

open CodeLexeme

namespace CCode

variable {types : TypeArena} {recovery : Recovery} {parcel : List Char} {buffer : String}

section Signatures

theorem tame_parameterDeclarators {parameter : Parameter} {declarators : List String}
    (spelled : types.Spelled) (isWord : Text.IsWord parameter.name)
    (rendered : parameterDeclarators types parameter = .ok declarators) :
    ∀ declarator ∈ declarators, Tame declarator := by
  have isName : IsRun parameter.name := isWord.isRun
  have typed : ∀ {type : TypeId} {texts : String → List String},
      (typeName types type >>= fun text => (pure (texts text) : Emit (List String))) =
        .ok declarators →
      (∀ text, Tame text → ∀ declarator ∈ texts text, Tame declarator) →
      ∀ declarator ∈ declarators, Tame declarator := by
    intro type texts spelling tame
    obtain ⟨text, isText, spelling⟩ := Emit.bind_eq_ok.mp spelling
    cases spelling
    exact tame text (isPhrase_typeName spelled isText).tame
  rw [parameterDeclarators] at rendered
  split at rendered
  case h_1 | h_7 =>
    cases rendered
    simp +decide [toString, isName]
  all_goals exact typed rendered (by simp +decide +contextual [toString, isName])

theorem tame_methodParameters {context : EmitContext} {method : Method} {parameters : String}
    (spelled : context.Spelled) (isMethod : method.Spelled)
    (rendered : methodParameters context method = .ok parameters) : Tame parameters := by
  obtain ⟨declarators, areDeclarators, rendered⟩ := Emit.bind_eq_ok.mp rendered
  cases rendered
  have isName : IsRun context.name := spelled.named.isRun
  apply tame_intercalate (by decide)
  rintro text (_ | ⟨_, listed⟩)
  · simp +decide [toString, isName]
  · obtain ⟨each, isEach, inside⟩ := List.mem_flatten.mp listed
    obtain ⟨parameter, isParameter, isRendered⟩ := Emit.exists_of_mem_mapM areDeclarators isEach
    exact tame_parameterDeclarators spelled.program.types (isMethod.parameters parameter isParameter)
      isRendered text inside

end Signatures

section Results

theorem emits_readElements {element : TypeId} {target length : String} {code : Code}
    (spelled : types.Spelled) (named : recovery.Named) (isParcel : Callee.IsParcel parcel)
    (isBuffer : IsRun buffer) (isTarget : IsRun target) (isLength : IsRun length)
    (rendered : readElements types recovery buffer element target length = .ok code) :
    Emits none parcel code (Callee.on parcel buffer
      ((WireCall.ofCallees (flatCallees (types.node element))).map (WireCall.inside 1))) := by
  obtain ⟨body, isBody, rendered⟩ := Emit.bind_eq_ok.mp rendered
  cases rendered
  exact emits_elementLoop 0 isLength (emits_readWithin_flat spelled named isParcel isBuffer
    (.element isTarget 0) (element?_eq_none_of_readWithin isBody) isBody)

theorem tells_copyString {name : String} (isName : IsRun name) :
    Tells parcel s!"strcpy_s({name}, {name}Len, {name}Copy) != EOK" [] :=
  tells_iff.mpr (by simp +decide [toString, isName])

theorem tells_fetchCopy {name : String} (isName : IsRun name) (isBuffer : IsRun buffer) :
    Tells parcel s!"const char *{name}Copy = HdfSbufReadString({buffer});"
      (Callee.on parcel buffer [.plain "String".toList]) := by
  have isCopy : IsRun ("*" ++ name ++ "Copy") := .append (.append (by decide) isName) (by decide)
  have declared : IsPhrase ("const" ++ " " ++ ("char" ++ " " ++ ("*" ++ name ++ "Copy"))) :=
    .behind (by decide) (.behind (by decide) (.of_isRun isCopy))
  exact tells_fetch declared (by decide) isBuffer
    (by simp [toString, Callee.onBuffer, Callee.reading])

theorem tells_capacity {name length : String} (isName : IsRun name) (isLength : IsRun length) :
    Tells parcel s!"uint32_t {name}Cap = {length};" [] :=
  tells_iff.mpr (by simp +decide [toString, isName, isLength])

theorem tells_overCapacity {name length : String} (isName : IsRun name) (isLength : IsRun length) :
    Tells parcel s!"{length} > {name}Cap" [] :=
  tells_iff.mpr (by simp +decide [toString, isName, isLength])

/-- A string that goes to a buffer of the caller. -/
theorem emits_copyString {name : String} (named : recovery.Named) (isBuffer : IsRun buffer)
    (isName : IsRun name) :
    Emits none parcel
      (Code.line s!"const char *{name}Copy = HdfSbufReadString({buffer});" ++
        leaveIf recovery s!"{name}Copy == NULL" s!"read {name}" ++
        leaveIf recovery s!"strcpy_s({name}, {name}Len, {name}Copy) != EOK" s!"copy {name}")
      (Callee.on parcel buffer (WireCall.ofCallees [.plain "String".toList])) := by
  have isRead : Tame s!"read {name}" := by simp +decide [toString, isName]
  have isCopy : Tame s!"copy {name}" := by simp +decide [toString, isName]
  have isNull : Tells parcel s!"{name}Copy == NULL" [] :=
    tells_iff.mpr (by simp +decide [toString, isName])
  have fetched := emits_fetch (@tells_fetchCopy parcel buffer name isName isBuffer)
  exact (fetched.append_quiet (emits_leaveIf named isNull isRead)).append_quiet
    (emits_leaveIf named (tells_copyString isName) isCopy)

/-- A sequence that goes to a buffer of the caller. -/
theorem emits_readSequence {name length : String} {element : TypeId} {elements : Code}
    (spelled : types.Spelled) (named : recovery.Named) (isParcel : Callee.IsParcel parcel)
    (isBuffer : IsRun buffer) (isName : IsRun name) (isLength : IsRun length)
    (rendered : readElements types recovery buffer element name length = .ok elements) :
    Emits none parcel
      (Code.line s!"uint32_t {name}Cap = {length};" ++
        leaveIf recovery s!"!HdfSbufReadUint32({buffer}, {name}Len)" s!"read {name} size" ++
        leaveIf recovery s!"{length} > {name}Cap" s!"check {name} size" ++ elements)
      (Callee.on parcel buffer (⟨.plain "Uint32".toList, 0⟩ ::
        (WireCall.ofCallees (flatCallees (types.node element))).map (WireCall.inside 1))) := by
  have isAddress : IsRun (name ++ "Len") := .append isName (by decide)
  have isSize : Tame s!"read {name} size" := by simp +decide [toString, isName]
  have isCheck : Tame s!"check {name} size" := by simp +decide [toString, isName]
  have told : Tells parcel s!"!HdfSbufReadUint32({buffer}, {name}Len)"
      (Callee.on parcel buffer [.plain "Uint32".toList]) :=
    tells_read (by decide) isBuffer (IsPhrase.of_isRun isAddress).tells
      (by simp [toString, Callee.onBuffer, Callee.reading])
  have counted := emits_check named isSize told
  have read := emits_readElements spelled named isParcel isBuffer isName isLength rendered
  have all := (((Emits.line (tells_capacity isName isLength)).quiet_append counted).append_quiet
    (emits_leaveIf named (tells_overCapacity isName isLength) isCheck)).append read
  rwa [← Callee.on_append] at all

/-- Other results are read in place. -/
theorem readResult_eq_read {parameter : Parameter}
    (notString : types.node parameter.type ≠ .primitive .string)
    (flat : types.element? parameter.type = none) :
    readResult types recovery buffer parameter =
      read types recovery buffer parameter.type s!"*{parameter.name}" none := by
  rw [readResult]
  split <;> simp_all [TypeArena.element?]

/-- A sequence is read into a buffer whose capacity the caller has given. -/
theorem readResult_sequence {parameter : Parameter} {element : TypeId} {code : Code}
    (isElement : types.element? parameter.type = some element)
    (rendered : readResult types recovery buffer parameter = .ok code) :
    ∃ length elements, length = s!"*{parameter.name}Len" ∧
      readElements types recovery buffer element parameter.name length = .ok elements ∧
      code = Code.line s!"uint32_t {parameter.name}Cap = {length};" ++
        leaveIf recovery s!"!HdfSbufReadUint32({buffer}, {parameter.name}Len)"
          s!"read {parameter.name} size" ++
        leaveIf recovery s!"{length} > {parameter.name}Cap"
          s!"check {parameter.name} size" ++ elements := by
  rw [readResult] at rendered
  rcases element?_eq_some.mp isElement with node | node
  all_goals
    simp only [node] at rendered
    obtain ⟨elements, isElements, rendered⟩ := Emit.bind_eq_ok.mp rendered
    cases rendered
    exact ⟨_, elements, rfl, isElements, rfl⟩

/-- A result is read like any value of its type, wherever it goes. -/
theorem emits_readResult {parameter : Parameter} {code : Code} (spelled : types.Spelled)
    (named : recovery.Named) (isParcel : Callee.IsParcel parcel) (isBuffer : IsRun buffer)
    (isWord : Text.IsWord parameter.name)
    (rendered : readResult types recovery buffer parameter = .ok code) :
    Emits none parcel code (Callee.on parcel buffer (wireShape types parameter.type)) := by
  have isName : IsRun parameter.name := isWord.isRun
  cases isElement : types.element? parameter.type with
  | none =>
      by_cases isString : types.node parameter.type = .primitive .string
      · rw [readResult, isString] at rendered
        cases rendered
        have shape : wireShape types parameter.type = WireCall.ofCallees [.plain "String".toList] := by
          simp [wireShape, isElement, isString, flatCallees, wireKind?]
        rw [shape]
        exact emits_copyString named isBuffer isName
      · rw [readResult_eq_read isString isElement] at rendered
        exact emits_read spelled named isParcel isBuffer (.pointee isName)
          (.append (by decide) isName) (by simp) rendered
  | some element =>
      have shape : wireShape types parameter.type = ⟨.plain "Uint32".toList, 0⟩ ::
          (WireCall.ofCallees (flatCallees (types.node element))).map (WireCall.inside 1) := by
        simp [wireShape, isElement]
      rw [shape]
      obtain ⟨length, elements, isLength, isElements, rfl⟩ := readResult_sequence isElement rendered
      have lengthRun : IsRun length := isLength ▸ .append (.append (by decide) isName) (by decide)
      exact emits_readSequence spelled named isParcel isBuffer isName lengthRun isElements

end Results

section Shapes

/-- What announces the capacities of the results of a method: a flag, then one capacity for each of
them. -/
def capacityShape (types : TypeArena) (method : Method) : List WireCall :=
  if types.needsCapacityFlag method then ⟨.plain "Int8".toList, 0⟩ ::
    (types.capacityParameters method).flatMap fun _ => [⟨.plain "Uint32".toList, 0⟩]
  else []

/-- What the request of a method is written and read with. -/
def requestShape (types : TypeArena) (method : Method) : List WireCall :=
  capacityShape types method ++
    method.inParameters.flatMap fun parameter => wireShape types parameter.type

/-- What the reply of a method is written and read with. -/
def replyShape (types : TypeArena) (method : Method) : List WireCall :=
  method.outParameters.flatMap fun parameter => wireShape types parameter.type

end Shapes

section Proxies

variable {method : Method}

theorem isRun_capacityValue {parameter : Parameter} (isWord : Text.IsWord parameter.name) :
    IsRun (capacityValue types parameter) := by
  have isLength : IsRun (parameter.name ++ "Len") := .append isWord.isRun (by decide)
  rw [capacityValue]
  split
  · exact isLength
  · exact .append (.append (by decide : IsRun "*") isWord.isRun) (by decide)

theorem operand_argumentValue {parameter : Parameter} (isWord : Text.IsWord parameter.name) :
    Operand (argumentValue types parameter) ∧ IsRun (argumentValue types parameter) := by
  rw [argumentValue]
  split
  · exact ⟨.pointee isWord.isRun, .append (by decide) isWord.isRun⟩
  · exact ⟨.pointee isWord.isRun, .append (by decide) isWord.isRun⟩
  · exact ⟨.word isWord, isWord.isRun⟩

theorem emits_writeCapacities (isMethod : method.Spelled) (named : recovery.Named)
    (isBuffer : IsRun buffer) :
    Emits none parcel (Code.when (types.needsCapacityFlag method)
      (writeCapacities types recovery buffer method))
      (Callee.on parcel buffer (capacityShape types method)) := by
  cases flag : types.needsCapacityFlag method with
  | false =>
      rw [capacityShape, flag, if_neg Bool.false_ne_true, Callee.on_nil]
      exact .nil
  | true =>
      have one : Tells parcel "1" [] := tells_iff.mpr (by simp +decide)
      have flagged : Tells parcel s!"!HdfSbufWriteInt8({buffer}, 1)"
          (Callee.on parcel buffer [.plain "Int8".toList]) :=
        tells_write (by decide) isBuffer one
          (by simp [toString, Callee.onBuffer, Callee.writing])
      have first := emits_check named (by decide : Tame "write flag of memory setting") flagged
      have each : ∀ parameter ∈ types.capacityParameters method,
          Emits none parcel (leaveIf recovery
            s!"!HdfSbufWriteUint32({buffer}, {capacityValue types parameter})"
            s!"write {parameter.name} capacity")
            (Callee.on parcel buffer [⟨.plain "Uint32".toList, 0⟩]) := by
        intro parameter listed
        have isWord := isMethod.parameters _ (mem_of_mem_capacityParameters listed)
        have isName := isWord.isRun
        exact emits_check named (by simp +decide [toString, isName])
          (tells_count (isRun_capacityValue isWord) isBuffer)
      have all := first.append (Emits.flatMap each)
      rw [Callee.on_flatMap, ← Callee.on_append] at all
      rw [capacityShape, flag, if_pos rfl]
      exact all

/-- A function starts without a result. -/
theorem tells_unset {result : String} (isResult : IsRun result) :
    Tells parcel s!"int32_t {result} = HDF_FAILURE;" [] :=
  tells_iff.mpr (by simp +decide [toString, isResult])

theorem tells_obtain (kernel : Bool) (isBuffer : IsRun buffer) :
    let obtain_ := if kernel then "HdfSbufObtainDefaultSize()" else "HdfSbufTypedObtain(SBUF_IPC)"
    Tells parcel s!"struct HdfSBuf *{buffer} = {obtain_};" [] := by
  cases kernel <;> exact tells_iff.mpr (by simp +decide [toString, isBuffer])

theorem tells_noBuffers {data reply : String} (isData : IsRun data) (isReply : IsRun reply) :
    Tells parcel s!"{data} == NULL || {reply} == NULL" [] :=
  tells_iff.mpr (by simp +decide [toString, isData, isReply])

/-- The token of an interface is written by the remote service. -/
theorem tells_writeToken {data : String} (isData : IsRun data) :
    Tells parcel s!"!HdfRemoteServiceWriteInterfaceToken(self->AsObject(self), {data})" [] :=
  tells_iff.mpr (by simp +decide [toString, isData])

theorem tells_proxyCall {result function command data reply : String} {oneway : Bool}
    (isParcel : Callee.IsParcel parcel) (isResult : IsRun result) (isFunction : IsRun function)
    (isCommand : IsRun command) (isData : IsRun data) (isReply : IsRun reply) :
    Tells parcel
      s!"{result} = {function}ProxyCall(self, {command}, {data}, {reply}, {oneway});" [] := by
  have other : ['s', 'e', 'l', 'f'] ≠ parcel := isParcel.ne_of_getLast? rfl (by decide)
  cases oneway <;>
    exact tells_iff.mpr
      (by simp +decide [toString, isResult, isFunction, isCommand, isData, isReply, other])

theorem emits_callProxy {context : EmitContext} (spelled : context.Spelled)
    (isMethod : method.Spelled) (isParcel : Callee.IsParcel parcel) (oneway : Bool) {result : String}
    {data reply : String} (isResult : IsRun result) (isData : IsRun data) (isReply : IsRun reply) :
    Emits none parcel
      (Code.line s!"{result} = {context.base}ProxyCall(self, {context.commandName method}, {data}, {reply}, {oneway});" ++
        Code.branch s!"{result} != HDF_SUCCESS"
          [s!"HDF_LOGE(\"%\x7bpublic\x7ds: call failed! error code is %\x7bpublic\x7dd\", __func__, {result});",
            "goto FINISHED;"]) [] := by
  have failed : Tells parcel s!"{result} != HDF_SUCCESS" [] :=
    tells_iff.mpr (by simp +decide [toString, isResult])
  have leaves : Tells parcel "goto FINISHED;" [] := tells_iff.mpr (by simp +decide)
  refine Emits.append_quiet (.line (tells_proxyCall isParcel isResult spelled.isWord_base.isRun
    (spelled.isRun_commandName isMethod) isData isReply)) ?_
  exact .reported "%\x7bpublic\x7ds: call failed! error code is %\x7bpublic\x7dd" (by decide)
    (by decide) failed (not_skips_none _) isResult leaves (by simp [toString])

/-- Behind its label a proxy gives the buffers back. -/
theorem emits_recycle {result data reply : String} {body : Code} {calls : List WireCall}
    (isResult : IsRun result) (isData : IsRun data) (isReply : IsRun reply)
    (emits : Emits none parcel body calls) :
    Emits none parcel
      (body ++ Code.label "FINISHED" ++
        Code.branch s!"{data} != NULL" [s!"HdfSbufRecycle({data});"] ++
        Code.branch s!"{reply} != NULL" [s!"HdfSbufRecycle({reply});"] ++
        Code.line s!"return {result};") calls := by
  have recycles : ∀ {buffer : String}, IsRun buffer → Emits none parcel
      (Code.branch s!"{buffer} != NULL" [s!"HdfSbufRecycle({buffer});"]) [] := by
    intro buffer isBuffer
    have present : Tells parcel s!"{buffer} != NULL" [] :=
      tells_iff.mpr (by simp +decide [toString, isBuffer])
    have recycled : Tells parcel s!"HdfSbufRecycle({buffer});" [] :=
      tells_iff.mpr (by simp +decide [toString, isBuffer])
    exact .branch present (not_skips_none _) (by simpa using recycled)
  have labelled : Tells parcel ("FINISHED" ++ ":") [] := tells_iff.mpr (by simp +decide)
  exact (((emits.append_quiet (.label labelled)).append_quiet (recycles isData)).append_quiet
    (recycles isReply)).append_quiet (.line (tells_return isResult))

/-- What a proxy does before it writes arguments: its buffers are there, and the token and the
capacities are in the request. -/
theorem emits_proxyStart {context : EmitContext} (isMethod : method.Spelled)
    {result data reply : String} (isResult : IsRun result) (isData : IsRun data)
    (isReply : IsRun reply) :
    let recovery : Recovery := .jump (some result) "FINISHED"
    let obtain_ :=
      if context.kernel then "HdfSbufObtainDefaultSize()" else "HdfSbufTypedObtain(SBUF_IPC)"
    Emits none parcel
      (Code.paragraphs
        [Code.line s!"int32_t {result} = HDF_FAILURE;",
          Code.lines [s!"struct HdfSBuf *{data} = {obtain_};",
            s!"struct HdfSBuf *{reply} = {obtain_};"],
          leaveIfWith recovery s!"{data} == NULL || {reply} == NULL" "HdfSubf malloc"
            "HDF_ERR_MALLOC_FAIL",
          leaveIfWith recovery "self == NULL" "check self" "HDF_ERR_INVALID_OBJECT",
          Code.when (!context.kernel)
            (leaveIf recovery
              s!"!HdfRemoteServiceWriteInterfaceToken(self->AsObject(self), {data})"
              "write interface token"),
          Code.when (context.types.needsCapacityFlag method)
            (writeCapacities context.types recovery data method)])
      (Callee.on parcel data (capacityShape context.types method)) := by
  intro recovery obtain_
  have named : recovery.Named := ⟨by simpa using isResult, by decide⟩
  have isSelf : Tells parcel "self == NULL" [] := tells_iff.mpr (by simp +decide)
  have obtained : Emits none parcel (Code.lines
      [s!"struct HdfSBuf *{data} = {obtain_};", s!"struct HdfSBuf *{reply} = {obtain_};"]) [] :=
    .lines (by simpa using ⟨tells_obtain context.kernel isData, tells_obtain context.kernel isReply⟩)
  have token := @Emits.when none parcel (!context.kernel) _ _
    (emits_leaveIf named (tells_writeToken isData) (by decide : Tame "write interface token"))
  apply Emits.paragraphs_quiet_cons (.line (tells_unset isResult))
  apply Emits.paragraphs_quiet_cons obtained
  apply Emits.paragraphs_quiet_cons
    (emits_leaveIfWith named (tells_noBuffers isData isReply) (by decide) (by decide))
  apply Emits.paragraphs_quiet_cons (emits_leaveIfWith named isSelf (by decide) (by decide))
  apply Emits.paragraphs_quiet_cons (by simpa [WireCall.ofCallees] using token)
  exact .paragraphs_singleton (emits_writeCapacities isMethod named isData)

theorem emits_arguments {arguments : List Code} (spelled : types.Spelled)
    (isMethod : method.Spelled) (named : recovery.Named) (isBuffer : IsRun buffer)
    (rendered : (method.inParameters.mapM fun parameter =>
      write types recovery buffer parameter.type (argumentValue types parameter)
        (some s!"{parameter.name}Len")) = .ok arguments) :
    Emits none parcel (Code.paragraphs arguments) (Callee.on parcel buffer
      (method.inParameters.flatMap fun parameter => wireShape types parameter.type)) := by
  rw [← Callee.on_flatMap]
  apply Emits.paragraphs_mapM rendered
  intro parameter listed code isCode
  have isWord := isMethod.parameters parameter (mem_of_mem_inParameters listed)
  obtain ⟨operand, isRun⟩ := operand_argumentValue isWord
  have isLength : IsRun s!"{parameter.name}Len" := .append isWord.isRun (by decide)
  exact emits_write spelled named isBuffer operand isRun (by simpa using isLength) isCode

theorem emits_results {results : List Code} (spelled : types.Spelled) (isMethod : method.Spelled)
    (named : recovery.Named) (isParcel : Callee.IsParcel parcel) (isBuffer : IsRun buffer)
    (rendered : method.outParameters.mapM (readResult types recovery buffer) = .ok results) :
    Emits none parcel (Code.paragraphs results)
      (Callee.on parcel buffer (replyShape types method)) := by
  rw [replyShape, ← Callee.on_flatMap]
  apply Emits.paragraphs_mapM rendered
  intro parameter listed code isCode
  exact emits_readResult spelled named isParcel isBuffer
    (isMethod.parameters parameter (mem_of_mem_outParameters listed)) isCode

/-- The proxy of a method writes its request and reads its reply. -/
theorem wireCalls_proxyMethod {context : EmitContext} {code : Code} (spelled : context.Spelled)
    (isMethod : method.Spelled) (rendered : proxyMethod context method = .ok code) :
    wireCalls none (context.localPrefix ++ "Data") (Code.text code) =
        requestShape context.types method ∧
      wireCalls none (context.localPrefix ++ "Reply") (Code.text code) =
        replyShape context.types method := by
  unfold proxyMethod at rendered
  obtain ⟨interface, -, rendered⟩ := Emit.bind_eq_ok.mp rendered
  obtain ⟨parameters, areParameters, rendered⟩ := Emit.bind_eq_ok.mp rendered
  obtain ⟨arguments, areArguments, rendered⟩ := Emit.bind_eq_ok.mp rendered
  obtain ⟨results, areResults, rendered⟩ := Emit.bind_eq_ok.mp rendered
  cases rendered
  have isData : IsRun s!"{context.localPrefix}Data" := spelled.isRun_local (by decide)
  have isReply : IsRun s!"{context.localPrefix}Reply" := spelled.isRun_local (by decide)
  have isResult : IsRun s!"{context.localPrefix}Ret" := spelled.isRun_local (by decide)
  have named : (Recovery.jump (some s!"{context.localPrefix}Ret") "FINISHED").Named :=
    ⟨by simpa using isResult, by decide⟩
  apply calls_of_parcels spelled
  · have isParameters := tame_methodParameters spelled isMethod areParameters
    have isBase : IsRun context.base := spelled.isWord_base.isRun
    have isName : IsRun method.name := isMethod.named.isRun
    simp +decide [toString, isBase, isName, isParameters]
  · intro parcel isParcel
    have started := @emits_proxyStart parcel method context isMethod _ _ _ isResult isData isReply
    have sent := @emits_arguments context.types _ parcel _ method arguments spelled.program.types
      isMethod named isData areArguments
    have called := @emits_callProxy parcel method context spelled isMethod isParcel
      (interface.isOneway method) _ _ _ isResult isData isReply
    have received := @emits_results context.types _ parcel _ method results spelled.program.types
      isMethod named isParcel isReply areResults
    have whole := ((started.paragraphs_append sent).paragraphs_append
      (.paragraphs_singleton called)).paragraphs_append received
    rw [List.append_nil, ← Callee.on_append] at whole
    exact emits_recycle isResult isData isReply whole

end Proxies

end CCode

end DriverIdl
