import DriverIdl.Emit.Declarations.C
import DriverIdl.Proofs.Emit.CFunctions

/-!
# What C stubs and functions of structs call

The stub of a method reads what the proxy writes and writes what the proxy reads.  Between the two it
allocates buffers for results, and at its end it releases what it owns; neither calls a function of a
parcel.  The two functions of a struct call the functions of its members in order.
-/

namespace DriverIdl

open CodeLexeme

namespace CCode

variable {types : TypeArena} {recovery : Recovery} {parcel : List Char} {buffer : String}

section Releases

theorem opens_present {text : String} (phrase : IsPhrase text) :
    Opens none parcel s!"if ({text} != NULL)" .plain [] := by
  have told : Tells parcel "!= NULL" [] := tells_iff.mpr (by simp +decide)
  have condition : Tells parcel (text ++ " != NULL") [] := .join ' ' phrase.tells told (by simp) rfl
  exact .if_spelled condition (not_skips_none _) (by simp [toString])

theorem opens_open {text : String} (phrase : IsPhrase text) :
    Opens none parcel s!"if ({text} >= 0)" .plain [] := by
  have told : Tells parcel ">= 0" [] := tells_iff.mpr (by simp +decide)
  have condition : Tells parcel (text ++ " >= 0") [] := .join ' ' phrase.tells told (by simp) rfl
  exact .if_spelled condition (not_skips_none _) (by simp [toString])

theorem tells_memFree {text : String} (phrase : IsPhrase text) :
    Tells parcel s!"OsalMemFree({text});" [] := by
  obtain ⟨front, last, undotted, calm, quiet, lexed⟩ := phrase
  exact tells_iff.mpr (by simpa +decide [toString, lexed, undotted, quiet] using calm)

theorem tells_close {text : String} (phrase : IsPhrase text) : Tells parcel s!"close({text});" [] := by
  obtain ⟨front, last, undotted, calm, quiet, lexed⟩ := phrase
  exact tells_iff.mpr (by simpa +decide [toString, lexed, undotted, quiet] using calm)

theorem tells_clear {text : String} (phrase : IsPhrase text) : Tells parcel s!"{text} = NULL;" [] := by
  have told : Tells parcel "= NULL;" [] := tells_iff.mpr (by simp +decide)
  exact .join ' ' phrase.tells told (by simp [toString]) rfl

theorem tells_unopen {text : String} (phrase : IsPhrase text) : Tells parcel s!"{text} = -1;" [] := by
  have told : Tells parcel "= -1;" [] := tells_iff.mpr (by simp +decide)
  exact .join ' ' phrase.tells told (by simp [toString]) rfl

/-- What is released is no pointer that stands for a value. -/
inductive Owner : String → Prop where
  | name {text : String} (isRun : IsRun text) (plain : text.toList.head? ≠ some '*') : Owner text
  | element {text : String} (isRun : IsRun text) (depth : Nat) : Owner (elementOf depth text)

theorem Owner.operand {text : String} (owner : Owner text) : Operand text := by
  cases owner with
  | name isRun plain => exact .name isRun plain
  | element isRun depth => exact .element isRun depth

theorem Owner.word {name : String} (isWord : Text.IsWord name) : Owner name :=
  .name isWord.isRun (by simpa using Operand.plain_of_isWord isWord [])

/-- The function that releases a struct gets an address, which is no parcel. -/
theorem tells_freeStruct {name target : String} (isParcel : Callee.IsParcel parcel)
    (isName : IsRun name) (owner : Owner target) :
    Tells parcel s!"{name}Free({addressOf target}, false);" [] := by
  cases owner with
  | name isRun plain =>
      have address : addressOf target = "&" ++ target := by
        rw [addressOf]
        split
        · rename_i inner starts
          simp [starts] at plain
        · rfl
      have other : '&' :: target.toList ≠ parcel := isParcel.ne_of_mem List.mem_cons_self rfl
      rw [address]
      exact tells_iff.mpr (by simp +decide [toString, isName, isRun, other])
  | @element text isRun depth =>
      have address : addressOf (elementOf depth text) = "&" ++ elementOf depth text := by
        simp [addressOf, elementOf, toString]
      have isIndex := isRun_counter depth
      have other : ['&'] ≠ parcel := isParcel.ne_of_mem List.mem_cons_self rfl
      rw [address]
      exact tells_iff.mpr (by simp +decide [toString, elementOf, isName, isRun, isIndex, other])

theorem emits_freed {target : String} (phrase : IsPhrase target) :
    Emits none parcel (Code.lines [s!"OsalMemFree({target});", s!"{target} = NULL;"]) [] :=
  .lines (by simpa using ⟨tells_memFree phrase, tells_clear phrase⟩)

/-- Releasing calls no function of a buffer.  Only a sequence of known length has elements that are
released, and these are no sequences with elements of their own. -/
theorem emits_releaseWithin {levels depth : Nat} {type : TypeId} {target : String}
    {length : Option String} {code : Code} (spelled : types.Spelled)
    (isParcel : Callee.IsParcel parcel) (owner : Owner target)
    (measured : ∀ count ∈ length, IsRun target ∧ IsRun count)
    (rendered : releaseWithin types levels type target length depth = .ok code) :
    Emits none parcel code [] := by
  induction levels generalizing type target length depth code with
  | zero =>
      cases rendered
      exact .nil
  | succ levels ih =>
      have phrase := owner.operand.isPhrase
      have elements : ∀ {element : TypeId} {count : String} {body : Code},
          lengthOf target length = .ok count →
          releaseWithin types levels element (elementOf depth target) none (depth + 1) = .ok body →
          Emits none parcel (elementLoop depth count body) [] := by
        intro element count body isCount isBody
        have known : length = some count := by
          cases length <;> cases isCount
          rfl
        obtain ⟨isRun, isLength⟩ := measured count known
        have inside := ih (.element isRun depth) (by simp) isBody
        have looped := @emits_elementLoop parcel target depth count body [] isLength
          (Callee.on_nil.symm ▸ inside)
        rwa [List.map_nil, Callee.on_nil] at looped
      rw [releaseWithin] at rendered
      cases node : types.node type with
      | primitive primitive =>
          cases primitive with
          | string =>
              rw [node] at rendered
              cases rendered
              exact .braced (opens_present phrase) (emits_freed phrase)
          | fileDescriptor =>
              rw [node] at rendered
              cases rendered
              have closed : Emits none parcel
                  (Code.lines [s!"close({target});", s!"{target} = -1;"]) [] :=
                .lines (by simpa using ⟨tells_close phrase, tells_unopen phrase⟩)
              exact .braced (opens_open phrase) closed
          | _ =>
              rw [node] at rendered
              cases rendered
              exact .nil
      | struct record =>
          rw [node] at rendered
          cases rendered
          have isWord : Text.IsWord record.name :=
            spelled type _ (by rw [node]; exact List.mem_cons_self)
          have freed := @Emits.when none parcel (owns types type) _ _
            (.line (tells_freeStruct isParcel isWord.isRun owner))
          simpa [WireCall.ofCallees] using freed
      | array element | list element =>
          simp only [node] at rendered
          split at rendered
          · obtain ⟨count, isCount, rendered⟩ := Emit.bind_eq_ok.mp rendered
            obtain ⟨body, isBody, rendered⟩ := Emit.bind_eq_ok.mp rendered
            cases rendered
            exact .braced (opens_present phrase)
              ((elements isCount isBody).append (emits_freed phrase))
          · cases rendered
            exact .braced (opens_present phrase) (Emits.nil.append (emits_freed phrase))
      | _ =>
          rw [node] at rendered
          cases rendered
          exact .nil

end Releases

section Stubs

variable {method : Method}

theorem tells_nullVariable {type name : String} (isType : IsPhrase type) (isName : IsRun name) :
    Tells parcel s!"{type} {name} = NULL;" [] := by
  have told : Tells parcel (name ++ " = NULL;") [] := tells_iff.mpr (by simp +decide [isName])
  exact .join ' ' isType.tells told (by simp [toString]) rfl

/-- A struct or union starts with zeros. -/
theorem emits_zeroVariable {text first type name : String} (isFirst : IsRun first)
    (isType : IsRun type) (isName : IsRun name)
    (spelled : text.toList = (first ++ " " ++ type ++ " " ++ name ++ " = \x7b0\x7d;").toList) :
    Emits none parcel (Code.line text) [] := by
  have declared : IsPhrase (type ++ " " ++ name) := .behind isType (.of_isRun isName)
  have same : text = first ++ " " ++ (type ++ " " ++ name) ++ " = \x7b" ++ "0" ++ "\x7d;" := by
    apply String.toList_injective
    rw [spelled]
    simp
  rw [same]
  exact .initialized isFirst declared (.inr (by decide))

theorem emits_localVariables {parameter : Parameter} {texts : List String}
    (spelled : types.Spelled) (isWord : Text.IsWord parameter.name)
    (rendered : localVariables types parameter = .ok texts) :
    Emits none parcel (Code.lines texts) [] := by
  have isName : IsRun parameter.name := isWord.isRun
  have counted : Tells parcel s!"uint32_t {parameter.name}Len = 0;" [] :=
    tells_iff.mpr (by simp +decide [toString, isName])
  obtain ⟨type, isType, rendered⟩ := Emit.bind_eq_ok.mp rendered
  cases rendered
  have phrase := isPhrase_typeName spelled isType
  have zeroed : ∀ {first name : String}, IsRun first → name ∈ (types.node parameter.type).names →
      type = first ++ " " ++ name →
      Emits none parcel (Code.lines [s!"{type} {parameter.name} = \x7b0\x7d;"]) [] := by
    rintro first name isFirst listed rfl
    exact emits_zeroVariable isFirst (spelled _ name listed).isRun isName (by simp [toString])
  have declared : typeWithin types (types.size + 1) parameter.type = .ok type := isType
  rw [typeWithin] at declared
  cases node : types.node parameter.type with
  | array element | list element =>
      exact .lines (by simpa using ⟨tells_nullVariable phrase isName, counted⟩)
  | primitive primitive =>
      cases primitive with
      | string =>
          have started : Tells parcel s!"char* {parameter.name} = NULL;" [] :=
            tells_iff.mpr (by simp +decide [toString, isName])
          refine Emits.append (.line started) ?_
          split
          · exact .lines (by simpa using counted)
          · exact .nil
      | boolean => exact .lines (by simp +decide [tells_iff, toString, isName])
      | fileDescriptor => exact .lines (by simp +decide [tells_iff, toString, isName])
      | _ => exact .lines (by simpa using tells_zero phrase isName)
  | enum declared => exact .lines (by simpa using tells_zero phrase isName)
  | struct record =>
      rw [node] at declared zeroed
      cases declared
      exact zeroed (by decide : IsRun "struct") List.mem_cons_self rfl
  | union record =>
      rw [node] at declared zeroed
      cases declared
      exact zeroed (by decide : IsRun "union") List.mem_cons_self rfl
  | interface declared => exact .lines (by simpa using tells_nullVariable phrase isName)
  | _ => exact .nil

theorem emits_holders {parameters : List Parameter} {holders : List (List String)}
    (spelled : types.Spelled) (words : ∀ parameter ∈ parameters, Text.IsWord parameter.name)
    (rendered : parameters.mapM (localVariables types) = .ok holders) :
    Emits none parcel (Code.lines holders.flatten) [] := by
  have each : ∀ texts ∈ holders, Emits none parcel (Code.lines texts) [] := by
    intro texts listed
    obtain ⟨parameter, isParameter, isRendered⟩ := Emit.exists_of_mem_mapM rendered listed
    exact emits_localVariables spelled (words parameter isParameter) isRendered
  have all := Emits.flatMap each
  rw [List.flatMap_eq_nil_iff.mpr fun _ _ => rfl] at all
  have same : Code.lines holders.flatten = holders.flatMap Code.lines := List.map_flatten
  rwa [same]

theorem isPhrase_capacityUnit {parameter : Parameter} {unit : String} (spelled : types.Spelled)
    (rendered : capacityUnit types parameter = .ok unit) : IsPhrase unit := by
  rw [capacityUnit] at rendered
  cases isElement : types.element? parameter.type with
  | none =>
      rw [isElement] at rendered
      cases rendered
      exact .of_isRun (by decide)
  | some element =>
      rw [isElement] at rendered
      exact isPhrase_typeName spelled rendered

theorem tells_largest {name unit : String} (isName : IsRun name) (isUnit : IsPhrase unit) :
    Tells parcel s!"{name}Len = HDI_BUFF_MAX_SIZE / sizeof({unit});" [] := by
  obtain ⟨front, last, undotted, calm, quiet, lexed⟩ := isUnit
  exact tells_iff.mpr (by simpa +decide [toString, isName, lexed, undotted, quiet] using calm)

/-- The capacities are read if the caller announced them. -/
theorem emits_readCapacities {data flag : String} {pieces : List Code} (spelled : types.Spelled)
    (isMethod : method.Spelled) (named : recovery.Named) (isData : IsRun data) (isFlag : IsRun flag)
    (needed : types.needsCapacityFlag method = true)
    (rendered : readCapacities types recovery data flag method = .ok pieces) :
    Emits none parcel (Code.paragraphs pieces)
      (Callee.on parcel data (capacityShape types method)) := by
  obtain ⟨largest, areLargest, rendered⟩ := Emit.bind_eq_ok.mp rendered
  cases rendered
  have isAddress : IsRun ("&" ++ flag) := .append (by decide) isFlag
  have flagged : Tells parcel s!"!HdfSbufReadInt8({data}, (int8_t *)&{flag})"
      (Callee.on parcel data [.plain "Int8".toList]) :=
    tells_read (by decide) isData (tells_flagAddress (.of_isRun isAddress))
      (by simp [toString, Callee.onBuffer, Callee.reading])
  have first := emits_check named (by decide : Tame "read flag of memory setting") flagged
  have announced : ∀ parameter ∈ types.capacityParameters method,
      Emits none parcel (leaveIf recovery
        s!"!HdfSbufReadUint32({data}, &{parameter.name}Len)" s!"read {parameter.name} capacity")
        (Callee.on parcel data [⟨.plain "Uint32".toList, 0⟩]) := by
    intro parameter listed
    have isName := (isMethod.parameters _ (mem_of_mem_capacityParameters listed)).isRun
    have told : Tells parcel s!"!HdfSbufReadUint32({data}, &{parameter.name}Len)"
        (Callee.on parcel data [.plain "Uint32".toList]) :=
      tells_read (by decide) isData
        (IsPhrase.of_isRun (.append (.append (by decide : IsRun "&") isName)
          (by decide : IsRun "Len"))).tells
        (by simp [toString, Callee.onBuffer, Callee.reading])
    exact emits_check named (by simp +decide [toString, isName]) told
  have assumed : Emits none parcel (Code.lines largest) [] := by
    apply Emits.lines
    intro text listed
    obtain ⟨parameter, isParameter, isRendered⟩ := Emit.exists_of_mem_mapM areLargest listed
    obtain ⟨unit, isUnit, isRendered⟩ := Emit.bind_eq_ok.mp isRendered
    cases isRendered
    exact tells_largest (isMethod.parameters _ (mem_of_mem_capacityParameters isParameter)).isRun
      (isPhrase_capacityUnit spelled isUnit)
  have opens : Opens none parcel s!"if ({flag})" .plain [] :=
    .if (IsPhrase.of_isRun isFlag).tells (not_skips_none _)
  have second := Emits.bracedElse opens (Emits.flatMap announced) assumed
  have both := first.paragraphs_cons (.paragraphs_singleton second)
  simp only [WireCall.ofCallees, List.map_nil, List.nil_append, List.append_nil,
    Callee.on_flatMap] at both
  rw [← Callee.on_append] at both
  rw [capacityShape, needed, if_pos rfl]
  exact both

theorem tells_noRoom {name : String} (isName : IsRun name) :
    Tells parcel s!"{name}Len == 0 || {name}Len > HDI_BUFF_MAX_SIZE" [] :=
  tells_iff.mpr (by simp +decide [toString, isName])

/-- Buffers for results call no function of a parcel. -/
theorem emits_allocateResult {parameter : Parameter} {code : Code} (spelled : types.Spelled)
    (named : recovery.Named) (isWord : Text.IsWord parameter.name)
    (rendered : allocateResult types recovery parameter = .ok code) : Emits none parcel code [] := by
  obtain ⟨unit, isUnit, rendered⟩ := Emit.bind_eq_ok.mp rendered
  cases rendered
  have isName : IsRun parameter.name := isWord.isRun
  have isLength : IsRun (parameter.name ++ "Len") := .append isName (by decide)
  have phrase := isPhrase_capacityUnit spelled isUnit
  have isMessage : Tame s!"malloc {parameter.name}" := by simp +decide [toString, isName]
  have isCheck : Tame s!"check {parameter.name} capacity" := by simp +decide [toString, isName]
  have allocated : Emits none parcel
      (Code.line s!"{parameter.name} = ({unit}*)OsalMemCalloc(sizeof({unit}) * ({parameter.name}Len));" ++
        leaveIfWith recovery s!"{parameter.name} == NULL" s!"malloc {parameter.name}"
          "HDF_ERR_MALLOC_FAIL") [] := by
    have told : Tells parcel
        s!"{parameter.name} = ({unit}*)OsalMemCalloc(sizeof({unit}) * ({parameter.name}Len));" [] := by
      have spelling := @tells_allocate parcel _ _ _ isName phrase isLength
      simpa only [toString, String.append_assoc, String.reduceAppend] using spelling
    exact (Emits.line told).append (emits_leaveIfWith named (tells_isNull (.of_isRun isName))
      isMessage (by decide))
  split
  · exact (emits_leaveIf named (tells_noRoom isName) isCheck).append allocated
  · have exceeds : Tells parcel s!"{parameter.name}Len > HDI_BUFF_MAX_SIZE / sizeof({unit})" [] := by
      obtain ⟨front, last, undotted, calm, quiet, lexed⟩ := phrase
      exact tells_iff.mpr (by simpa +decide [toString, isName, lexed, undotted, quiet] using calm)
    have positive : Tells parcel s!"{parameter.name}Len > 0" [] :=
      tells_iff.mpr (by simp +decide [toString, isName])
    have opens : Opens none parcel s!"if ({parameter.name}Len > 0)" .plain [] :=
      .if_spelled positive (not_skips_none _) (by simp [toString])
    exact (emits_leaveIf named exceeds isCheck).append (.braced opens allocated)

/-- What a stub holds at its start. -/
theorem emits_stubStart {result flag : String} {holders : List (List String)} (needed : Bool)
    (spelled : types.Spelled) (isMethod : method.Spelled) (isResult : IsRun result)
    (isFlag : IsRun flag) (rendered : method.parameters.mapM (localVariables types) = .ok holders) :
    Emits none parcel
      (Code.line s!"int32_t {result} = HDF_FAILURE;" ++
        Code.when needed (Code.line s!"bool {flag} = false;") ++ Code.lines holders.flatten) [] := by
  have unset : Tells parcel s!"bool {flag} = false;" [] :=
    tells_iff.mpr (by simp +decide [toString, isFlag])
  have flagged : Emits none parcel (Code.when needed (Code.line s!"bool {flag} = false;")) [] := by
    cases needed with
    | false => exact .nil
    | true => exact .line unset
  exact ((Emits.line (tells_unset isResult)).append_quiet flagged).append_quiet
    (emits_holders spelled isMethod.parameters rendered)

theorem emits_readArguments {arguments : List Code} (spelled : types.Spelled)
    (isMethod : method.Spelled) (named : recovery.Named) (isParcel : Callee.IsParcel parcel)
    (isBuffer : IsRun buffer)
    (rendered : (method.inParameters.mapM fun parameter =>
      read types recovery buffer parameter.type parameter.name
        (some s!"{parameter.name}Len")) = .ok arguments) :
    Emits none parcel (Code.paragraphs arguments) (Callee.on parcel buffer
      (method.inParameters.flatMap fun parameter => wireShape types parameter.type)) := by
  rw [← Callee.on_flatMap]
  apply Emits.paragraphs_mapM rendered
  intro parameter listed code isCode
  have isWord := isMethod.parameters parameter (mem_of_mem_inParameters listed)
  have isLength : IsRun s!"{parameter.name}Len" := .append isWord.isRun (by decide)
  have measured : Operand s!"{parameter.name}Len" := .starting isWord isLength
  exact emits_read spelled named isParcel isBuffer (.word isWord) isWord.isRun
    (by simpa using ⟨isLength, measured⟩) isCode

theorem emits_writeResults {results : List Code} (spelled : types.Spelled)
    (isMethod : method.Spelled) (named : recovery.Named) (isBuffer : IsRun buffer)
    (rendered : (method.outParameters.mapM fun parameter =>
      write types recovery buffer parameter.type parameter.name
        (some s!"{parameter.name}Len")) = .ok results) :
    Emits none parcel (Code.paragraphs results)
      (Callee.on parcel buffer (replyShape types method)) := by
  rw [replyShape, ← Callee.on_flatMap]
  apply Emits.paragraphs_mapM rendered
  intro parameter listed code isCode
  have isWord := isMethod.parameters parameter (mem_of_mem_outParameters listed)
  have isLength : IsRun s!"{parameter.name}Len" := .append isWord.isRun (by decide)
  exact emits_write spelled named isBuffer (.word isWord) isWord.isRun (by simpa using isLength) isCode

theorem emits_buffers {parameters : List Parameter} {buffers : List Code} (spelled : types.Spelled)
    (named : recovery.Named) (words : ∀ parameter ∈ parameters, Text.IsWord parameter.name)
    (rendered : parameters.mapM (allocateResult types recovery) = .ok buffers) :
    Emits none parcel (Code.paragraphs buffers) [] := by
  have all := Emits.paragraphs_mapM rendered fun parameter listed code isCode =>
    @emits_allocateResult types recovery parcel parameter code spelled named
      (words parameter listed) isCode
  rwa [List.flatMap_eq_nil_iff.mpr fun _ _ => rfl] at all

theorem tells_callArguments {parameter : Parameter} (isWord : Text.IsWord parameter.name) :
    ∀ argument ∈ callArguments types parameter, Tells parcel argument [] := by
  have isName : IsRun parameter.name := isWord.isRun
  have name : Tells parcel parameter.name [] := (IsPhrase.of_isRun isName).tells
  have address : Tells parcel s!"&{parameter.name}" [] :=
    tells_iff.mpr (by simp +decide [toString, isName])
  have length : Tells parcel s!"{parameter.name}Len" [] :=
    tells_iff.mpr (by simp +decide [toString, isName])
  have lengthAddress : Tells parcel s!"&{parameter.name}Len" [] :=
    tells_iff.mpr (by simp +decide [toString, isName])
  rw [callArguments]
  split <;> simp only [List.forall_mem_cons, List.not_mem_nil, false_implies, implies_true, name,
    address, length, lengthAddress, and_self]

theorem isRun_service {name : String} (isWord : Text.IsWord name) :
    IsRun ("serviceImpl->" ++ name) ∧ Callee.ofFunction? ("serviceImpl->" ++ name).toList = none := by
  refine ⟨.append (by decide) isWord.isRun, ?_⟩
  have unqualified : ':' ∉ name.toList := fun inside =>
    absurd (isWord.2 ':' inside) (by decide)
  exact Callee.ofFunction?_member (by rw [String.toList_append]; rfl) (by decide) (by simp)
    (by simp [unqualified])

/-- The functions of the implementation are no parcel functions. -/
theorem emits_callService {result name passed : String} (isResult : IsRun result)
    (isWord : Text.IsWord name) (told : Tells parcel passed []) :
    Emits none parcel
      (Code.line s!"{result} = serviceImpl->{name}({passed});" ++
        Code.branch s!"{result} != HDF_SUCCESS"
          [s!"HDF_LOGE(\"%\x7bpublic\x7ds: call {name} failed, error code is %\x7bpublic\x7dd\", __func__, {result});",
            "goto FINISHED;"]) [] := by
  obtain ⟨isFunction, idle⟩ := isRun_service isWord
  have closed : Tells parcel (passed ++ ")" ++ ";") [] :=
    .join ')' told (tells_iff.mpr (by simp +decide) : Tells parcel ";" []) (by simp) rfl
  have called : Tells parcel ("serviceImpl->" ++ name ++ "(" ++ passed ++ ");") [] :=
    .idle isFunction idle closed (by simp)
  have assigned : Tells parcel "=" [] := tells_iff.mpr (by simp +decide)
  have told : Tells parcel s!"{result} = serviceImpl->{name}({passed});" [] := by
    have behind : Tells parcel ("= serviceImpl->" ++ name ++ "(" ++ passed ++ ");") [] :=
      .join ' ' assigned called (by simp) rfl
    exact .join ' ' (IsPhrase.of_isRun isResult).tells behind (by simp [toString]) rfl
  have failed : Tells parcel s!"{result} != HDF_SUCCESS" [] :=
    tells_iff.mpr (by simp +decide [toString, isResult])
  have leaves : Tells parcel "goto FINISHED;" [] := tells_iff.mpr (by simp +decide)
  have message : ∀ character, tames character = false → character ∉ name.toList :=
    fun character wild => @Tame.not_mem _ isWord.isRun.tame character wild
  refine Emits.append_quiet (.line told) ?_
  exact .reported ("%\x7bpublic\x7ds: call " ++ name ++ " failed, error code is %\x7bpublic\x7dd")
    (by simp [message '"' rfl]) (by simp [message '\n' rfl]) failed (not_skips_none _) isResult leaves
    (by simp [toString])

theorem emits_checkService {name : String} (named : recovery.Named) (isName : IsRun name) :
    Emits none parcel
      (leaveIfWith recovery s!"serviceImpl == NULL || serviceImpl->{name} == NULL"
        "check serviceImpl" "HDF_ERR_INVALID_OBJECT") [] := by
  have told : Tells parcel s!"serviceImpl == NULL || serviceImpl->{name} == NULL" [] :=
    tells_iff.mpr (by simp +decide [toString, isName])
  exact emits_leaveIfWith named told (by decide) (by decide)

/-- The storage of parameters is released. -/
theorem emits_releases {parameters : List Parameter} {code : Code} (spelled : types.Spelled)
    (isParcel : Callee.IsParcel parcel)
    (words : ∀ parameter ∈ parameters, Text.IsWord parameter.name)
    (rendered : Code.forEach parameters (fun parameter =>
      release types parameter.type parameter.name (some s!"{parameter.name}Len")) = .ok code) :
    Emits none parcel code [] := by
  obtain ⟨pieces, arePieces, rendered⟩ := Emit.bind_eq_ok.mp rendered
  cases rendered
  have each : ∀ piece ∈ pieces, Emits none parcel piece [] := by
    intro piece listed
    obtain ⟨parameter, isParameter, isRendered⟩ := Emit.exists_of_mem_mapM arePieces listed
    have isWord := words parameter isParameter
    have isLength : IsRun s!"{parameter.name}Len" := .append isWord.isRun (by decide)
    exact emits_releaseWithin spelled isParcel (.word isWord)
      (by simpa using ⟨isWord.isRun, isLength⟩) isRendered
  have all := Emits.flatMap each
  rwa [List.flatMap_eq_nil_iff.mpr fun _ _ => rfl, List.flatMap_id'] at all

/-- The stub of a method reads its request and writes its reply. -/
theorem wireCalls_stubMethod {context : EmitContext} {code : Code} (spelled : context.Spelled)
    (isMethod : method.Spelled) (rendered : stubMethod context method = .ok code) :
    wireCalls none (context.localPrefix ++ "Data") (Code.text code) =
        requestShape context.types method ∧
      wireCalls none (context.localPrefix ++ "Reply") (Code.text code) =
        replyShape context.types method := by
  unfold stubMethod at rendered
  obtain ⟨holders, areHolders, rendered⟩ := Emit.bind_eq_ok.mp rendered
  obtain ⟨capacities, areCapacities, rendered⟩ := Emit.ite_bind_eq_ok rendered
  obtain ⟨arguments, areArguments, rendered⟩ := Emit.bind_eq_ok.mp rendered
  obtain ⟨buffers, areBuffers, rendered⟩ := Emit.bind_eq_ok.mp rendered
  obtain ⟨results, areResults, rendered⟩ := Emit.bind_eq_ok.mp rendered
  obtain ⟨releases, areReleases, rendered⟩ := Emit.bind_eq_ok.mp rendered
  cases rendered
  have isData : IsRun s!"{context.localPrefix}Data" := spelled.isRun_local (by decide)
  have isReply : IsRun s!"{context.localPrefix}Reply" := spelled.isRun_local (by decide)
  have isResult : IsRun s!"{context.localPrefix}Ret" := spelled.isRun_local (by decide)
  have isFlag : IsRun s!"{context.localPrefix}MemSet" := spelled.isRun_local (by decide)
  have isName : IsRun method.name := isMethod.named.isRun
  have isContext : IsRun context.name := spelled.named.isRun
  have named : (Recovery.jump (some s!"{context.localPrefix}Ret") "FINISHED").Named :=
    ⟨by simpa using isResult, by decide⟩
  have words := spelled.program.types
  apply calls_of_parcels spelled
  · have isPrefix : Tame context.localPrefix := ((tame_append _ _).mp isData.tame).1
    simp +decide [toString, isName, isContext, isPrefix]
  · intro parcel isParcel
    have started := Emits.paragraphs_singleton
      (@emits_stubStart context.types parcel method _ _ holders
        (context.types.needsCapacityFlag method) words isMethod isResult isFlag areHolders)
    have announced : Emits none parcel (Code.paragraphs capacities)
        (Callee.on parcel s!"{context.localPrefix}Data" (capacityShape context.types method)) := by
      cases needed : context.types.needsCapacityFlag method with
      | false =>
          rw [needed] at areCapacities
          cases areCapacities
          rw [capacityShape, needed, if_neg Bool.false_ne_true, Callee.on_nil]
          exact .nil
      | true =>
          rw [needed] at areCapacities
          exact emits_readCapacities words isMethod named isData isFlag needed areCapacities
    have received := @emits_readArguments context.types _ parcel _ method arguments words isMethod
      named isParcel isData areArguments
    have allocated := @emits_buffers context.types _ parcel _ buffers words named
      (fun parameter listed => isMethod.parameters _ (mem_of_mem_capacityParameters listed)) areBuffers
    have passed : Tells parcel (String.intercalate ", "
        ("serviceImpl" :: method.parameters.flatMap (callArguments context.types))) [] := by
      apply tells_arguments
      rintro argument (_ | ⟨_, listed⟩)
      · exact (IsPhrase.of_isRun (by decide)).tells
      · obtain ⟨parameter, isParameter, isArgument⟩ := List.mem_flatMap.mp listed
        exact tells_callArguments (isMethod.parameters parameter isParameter) argument isArgument
    have called := (emits_checkService named isName).paragraphs_cons
      (.paragraphs_singleton (emits_callService isResult isMethod.named passed))
    have answered := @emits_writeResults context.types _ parcel _ method results words isMethod named
      isReply areResults
    have released := emits_releases words isParcel
      (fun parameter listed => isMethod.parameters _ (List.mem_of_mem_filter listed)) areReleases
    have whole := (((((started.paragraphs_append announced).paragraphs_append received).paragraphs_append
      allocated).paragraphs_append called).paragraphs_append answered)
    simp only [List.nil_append, List.append_nil] at whole
    rw [← Callee.on_append] at whole
    have labelled : Tells parcel ("FINISHED" ++ ":") [] := tells_iff.mpr (by simp +decide)
    have returned := @tells_return parcel _ isResult
    exact ((whole.append_quiet (.label labelled)).append_quiet released).append_quiet (.line returned)

end Stubs

section Structs

variable {record : RecordType} {code : Code}

/-- What a struct is written and read with. -/
def blockShape (types : TypeArena) (record : RecordType) : List WireCall :=
  record.members.flatMap fun member => wireShape types member.type

theorem operand_member {member : Member} (isWord : Text.IsWord member.name) :
    let (value, length) := memberExpressions member
    (Operand value ∧ IsRun value) ∧ IsRun length ∧ Operand length := by
  have isValue : IsRun s!"dataBlock->{member.name}" := .append (by decide) isWord.isRun
  have isLength : IsRun s!"dataBlock->{member.name}Len" := .append isValue (by decide)
  exact ⟨⟨.name isValue (by simp [toString]), isValue⟩, isLength, .name isLength (by simp [toString])⟩

theorem emits_checkBlock : Emits none parcel checkBlock [] := by
  have told : Tells parcel "data == NULL || dataBlock == NULL" [] := tells_iff.mpr (by simp +decide)
  have left : Tells parcel "return false;" [] := tells_iff.mpr (by simp +decide)
  exact .refusal told (not_skips_none _) (by decide) (by simpa using left)

theorem wireCalls_marshalling (spelled : types.Spelled) (isRecord : record.Spelled)
    (rendered : marshalling types record = .ok code) :
    wireCalls none "data" (Code.text code) = blockShape types record := by
  obtain ⟨members, areMembers, rendered⟩ := Emit.bind_eq_ok.mp rendered
  cases rendered
  have isName : IsRun record.name := isRecord.named.isRun
  apply wireCalls_function
  · simp +decide [marshallingSignature, toString, isName]
  · have written := Emits.paragraphs_mapM areMembers fun member listed piece isPiece =>
      have words := operand_member (isRecord.members member listed)
      @emits_write types .returnFalse "data".toList "data" _ _ _ piece spelled trivial (by decide)
        words.1.1 words.1.2 (by simpa using words.2.1) isPiece
    have returned : Tells "data".toList "return true;" [] := tells_iff.mpr (by simp +decide)
    have whole := (emits_checkBlock.paragraphs_cons written).append_quiet (.line returned)
    rwa [Callee.on_flatMap, Callee.on_self] at whole

theorem tells_clearBlock {name : String} (isName : IsRun name) :
    Tells parcel s!"memset_s(dataBlock, sizeof(struct {name}), 0, sizeof(struct {name})) != EOK" [] :=
  tells_iff.mpr (by simp +decide [toString, isName])

/-- What was read before a failure is released. -/
theorem emits_errors {name : String} (owning : Bool) (isParcel : Callee.IsParcel parcel)
    (isName : IsRun name) :
    Emits none parcel (Code.when owning
      (Code.label "ERRORS" ++ Code.lines [s!"{name}Free(dataBlock, false);", "return false;"])) [] := by
  have notParcel : ['d', 'a', 't', 'a', 'B', 'l', 'o', 'c', 'k'] ≠ parcel :=
    isParcel.ne_of_getLast? rfl (by decide)
  have labelled : Tells parcel ("ERRORS" ++ ":") [] := tells_iff.mpr (by simp +decide)
  have freed : Tells parcel s!"{name}Free(dataBlock, false);" [] :=
    tells_iff.mpr (by simp +decide [toString, isName, notParcel])
  have left : Tells parcel "return false;" [] := tells_iff.mpr (by simp +decide)
  cases owning with
  | false => exact .nil
  | true => exact (Emits.label labelled).append (.lines (by simpa using ⟨freed, left⟩))

theorem wireCalls_unmarshalling (spelled : types.Spelled) (isRecord : record.Spelled)
    (rendered : unmarshalling types record = .ok code) :
    wireCalls none "data" (Code.text code) = blockShape types record := by
  obtain ⟨members, areMembers, rendered⟩ := Emit.bind_eq_ok.mp rendered
  cases rendered
  have isName : IsRun record.name := isRecord.named.isRun
  apply wireCalls_function
  · simp +decide [unmarshallingSignature, toString, isName]
  · have named : Recovery.Named
        (if record.members.any fun member => owns types member.type then .jump none "ERRORS"
          else .returnFalse) := by
      split
      · exact ⟨by simp, by decide⟩
      · exact trivial
    have read := Emits.paragraphs_mapM areMembers fun member listed piece isPiece =>
      have words := operand_member (isRecord.members member listed)
      @emits_read types _ "data".toList "data" _ _ _ piece spelled named Callee.isParcel_block (by decide)
        words.1.1 words.1.2 (by simpa using words.2) isPiece
    have left : Tells "data".toList "return false;" [] := tells_iff.mpr (by simp +decide)
    have cleared := @Emits.branch none "data".toList _ _ ["return false;"] (tells_clearBlock isName)
      (not_skips_none _) (by simpa using left)
    have returned : Tells "data".toList "return true;" [] := tells_iff.mpr (by simp +decide)
    have whole := (((emits_checkBlock.append_quiet cleared).paragraphs_cons read).append_quiet
      (.line returned)).append_quiet (emits_errors
        (record.members.any fun member => owns types member.type) Callee.isParcel_block isName)
    rwa [Callee.on_flatMap, Callee.on_self] at whole

end Structs

end CCode

end DriverIdl
