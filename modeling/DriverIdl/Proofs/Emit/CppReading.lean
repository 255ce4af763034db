import DriverIdl.Proofs.Emit.CppCalls

/-!
# What C++ statements call when they read

Reading a value takes more statements than writing it, for what a parcel gives is checked and kept in
variables; the functions of the parcel that they call are those that writing calls.
-/

namespace DriverIdl

open CodeLexeme

namespace CppCode

section Statements

variable {skip : Option (List Char)} {parcel : List Char} {buffer leave : String}

theorem isWord_lastWord (expression : String) : Text.IsWord (lastWord expression) := by
  rw [lastWord]
  split
  · exact ⟨by decide, List.all_eq_true.mp rfl⟩
  · rename_i nonempty
    refine ⟨?_, ?_⟩
    · simpa using nonempty
    · intro character inside
      rw [String.toList_ofList, List.mem_reverse] at inside
      exact List.all_eq_true.mp List.all_takeWhile character inside

/-- What a parcel gives is assigned. -/
theorem tells_fetch {text target kind tail : String} (isTarget : Tells parcel target [])
    (isKind : IsRun kind) (isBuffer : IsRun buffer) (told : Tells parcel tail [])
    (spelled : text.toList = target.toList ++ ' ' :: '=' :: ' ' :: (buffer.toList ++ '.' ::
      (Callee.reading ++ (kind.toList ++ '(' :: tail.toList)))) :
    Tells parcel text (Callee.on parcel buffer [.plain (kind.toList.takeWhile (· != '<'))]) := by
  have isRun : IsRun ("Read" ++ kind) := .append (by decide) isKind
  have name : ("Read" ++ kind).toList = Callee.reading ++ kind.toList := String.toList_append
  have called : Tells parcel (buffer ++ "." ++ ("Read" ++ kind) ++ "(" ++ tail) _ :=
    .method isBuffer isRun told (by simp)
  rw [name, Callee.ofMethod?_reading] at called
  have assigned : Tells parcel "=" [] := tells_iff.mpr (by simp +decide)
  have behind : Tells parcel ("= " ++ buffer ++ "." ++ ("Read" ++ kind) ++ "(" ++ tail) _ :=
    .join ' ' assigned called (by simp) rfl
  exact .join ' ' isTarget behind (by simp [spelled, Callee.reading]) rfl

/-- A method of a parcel that reads. -/
theorem tells_read {text kind arguments : String} (isKind : IsKind kind) (isBuffer : IsRun buffer)
    (told : Tells parcel arguments [])
    (spelled : text.toList = '!' :: (buffer.toList ++ '.' :: (Callee.reading ++ (kind.toList ++
      '(' :: (arguments.toList ++ [')']))))) :
    Tells parcel text (Callee.on parcel buffer [.plain kind.toList]) := by
  have name : ("Read" ++ kind).toList = Callee.reading ++ kind.toList := String.toList_append
  have isMethod := Callee.ofMethod?_reading kind.toList
  rw [isKind.takeWhile, ← name] at isMethod
  exact tells_checked (.append (by decide) isKind.1) isMethod isBuffer told (by simp [spelled, name])

theorem tells_readBlock {name value : String} (isRun : IsRun name) (isName : Callee.IsName name.toList)
    (isBuffer : IsRun buffer) (told : Tells parcel value []) :
    Tells parcel s!"!{name}BlockUnmarshalling({buffer}, {value})"
      (Callee.on parcel buffer [.block name.toList]) := by
  have isFunction : IsRun (name ++ "BlockUnmarshalling") := .append isRun (by decide)
  have function : (name ++ "BlockUnmarshalling").toList = name.toList ++ Callee.readingBlock := by
    simp [Callee.readingBlock]
  have calls : Tells parcel s!"!{name}BlockUnmarshalling({buffer}, {value})" _ :=
    .callNot isFunction isBuffer told (by simp [toString])
  rwa [function, Callee.ofFunction?_readingBlock isName] at calls

/-- A variable that must not be null. -/
theorem emits_present {name what : String} (operand : Operand name) (isParcel : Callee.IsParcel parcel)
    (leaves : Tells parcel leave []) (tame : Tame what) :
    Emits skip parcel (leaveIf leave s!"{name} == nullptr" what) [] :=
  emits_leaveIf leaves tame (operand.not_skips_of_blank (by simp [toString]))
    (tells_null operand isParcel)

/-- Statements that fetch something from a parcel. -/
theorem emits_fetch {text : String} {callees : List Callee}
    (told : Tells parcel text (Callee.on parcel buffer callees)) :
    Emits skip parcel (Code.line text) (Callee.on parcel buffer (WireCall.ofCallees callees)) := by
  have emits := @Emits.line skip _ _ _ told
  rwa [WireCall.ofCallees, Callee.on_map] at emits

/-- A loop over as many elements as there are. -/
theorem emits_countedLoop {depth : Nat} {size : String} {body : Code} {calls : List WireCall}
    (isSize : IsRun size) (emits : Emits skip parcel body (Callee.on parcel buffer calls)) :
    Emits skip parcel (countedLoop depth size body)
      (Callee.on parcel buffer (calls.map (WireCall.inside 1))) := by
  have isNumber : IsRun (toString depth) := by
    have isNumbered := @isNumbered_append "" (List.all_eq_true.mp rfl) depth
    rw [String.empty_append] at isNumbered
    exact isNumbered.isRun
  rw [countedLoop]
  generalize toString depth = number at *
  have told : Tells parcel s!"uint32_t i{number} = 0; i{number} < {size}; ++i{number}" [] :=
    tells_iff.mpr (by simp +decide [toString, isNumber, isSize])
  have opens : Opens skip parcel s!"for (uint32_t i{number} = 0; i{number} < {size}; ++i{number})"
      .loop [] := .for (by simp [toString]) told
  have looped := Emits.braced opens emits
  rwa [Block.around, Callee.on_map] at looped

/-- The head of a sequence: its length is read and checked. -/
theorem emits_readSize {size what : String} (isBuffer : IsRun buffer)
    (leaves : Tells parcel leave []) (isSize : IsNumbered size) (tame : Tame what) :
    Emits skip parcel
      (Code.line s!"uint32_t {size} = 0;" ++
        leaveIf leave s!"!{buffer}.ReadUint32({size})" s!"{what} size")
      (Callee.on parcel buffer [⟨.plain "Uint32".toList, 0⟩]) := by
  have isRun := isSize.isRun
  have started : Tells parcel s!"uint32_t {size} = 0;" [] :=
    tells_iff.mpr (by simp +decide [toString, isRun])
  have isMessage : Tame s!"{what} size" := by simp +decide [toString, tame]
  have read : Tells parcel s!"!{buffer}.ReadUint32({size})" _ :=
    tells_read (by decide : IsKind "Uint32") isBuffer (IsPhrase.of_isRun isRun).tells
      (by simp [toString, Callee.reading])
  exact Emits.quiet_append (.line started) (emits_check leaves isMessage read (by simp [toString]))

theorem emits_checkSize {size type what : String} (leaves : Tells parcel leave [])
    (isSize : IsRun size) (isType : IsPhrase type) (tame : Tame what) :
    Emits skip parcel (leaveIf leave s!"{size} > HDI_BUFF_MAX_SIZE / sizeof({type})" what) [] :=
  emits_leaveIf leaves tame (isSize.not_skips ' ' (by simp [toString]) rfl)
    (tells_exceeds isSize isType)

section Reading

variable {target stem number what : String} (operand : Operand target)
variable (isParcel : Callee.IsParcel parcel) (isBuffer : IsRun buffer) (leaves : Tells parcel leave [])

include operand isParcel

theorem tells_assignment {text value : String} (told : Tells parcel value [])
    (spelled : text.toList = target.toList ++ ' ' :: '=' :: ' ' :: (value.toList ++ [';'])) :
    Tells parcel text [] := by
  have assigned : Tells parcel "=" [] := tells_iff.mpr (by simp +decide)
  have ended : Tells parcel (value ++ ";") [] := .join ';' told tells_empty (by simp) rfl
  have behind : Tells parcel ("= " ++ value ++ ";") [] := .join ' ' assigned ended (by simp) rfl
  exact .join ' ' (operand.tells_self isParcel) behind (by simp [spelled]) rfl

/-- A method that changes a container. -/
theorem tells_change {text method behind : String} (isMethod : IsRun method)
    (silent : Callee.ofMethod? method.toList = none) (told : Tells parcel behind [])
    (spelled : text.toList = target.toList ++ '.' :: (method.toList ++ '(' :: behind.toList)) :
    Tells parcel text [] := by
  have grouped : ∀ {item part : String}, IsNumbered item → IsRun part →
      text.toList = '(' :: (item ++ "." ++ part).toList ++
        ')' :: '.' :: (method.toList ++ '(' :: behind.toList) → Tells parcel text [] := by
    intro item part isItem isPart same
    have called : Tells parcel ("." ++ method ++ "(" ++ behind) [] :=
      .chained isParcel isMethod told (by simp)
    exact .grouped (isItem.tells_part isParcel isPart) called (by simp [same])
  cases operand with
  | word isWord =>
      have called := Tells.method isWord.isRun isMethod told spelled
      rwa [silent, Option.toList_none, Callee.on_nil] at called
  | @member name isWord =>
      have opened : Tells parcel ("(" ++ behind) [] := .opened told (by simp)
      refine @tells_member parcel text "dataBlock".toList (name.toList ++ '.' :: method.toList)
        ("(" ++ behind) (by decide) ?_ (.inl (isParcel.ne_of_getLast? rfl (by decide))) opened
        (by simp +decide) (by simp [spelled, toString])
      intro character inside
      simp only [List.mem_append, List.mem_cons] at inside
      rcases inside with front | rfl | name | rfl | method
      · exact unbroken_of_all (rfl : "dataBlock".toList.all (!separates ·) = true) character front
      · decide
      · exact isWord.isRun.unbroken character name
      · decide
      · exact isMethod.unbroken character method
  | key isItem => exact grouped isItem (by decide : IsRun "first") (by simp [spelled, toString])
  | mapped isItem => exact grouped isItem (by decide : IsRun "second") (by simp [spelled, toString])

include isBuffer leaves

/-- A string is copied out of the parcel. -/
theorem emits_readString (isCopy : IsNumbered s!"{stem}Cp{number}") (tame : Tame what) :
    Emits skip parcel
      (Code.line s!"const char* {stem}Cp{number} = {buffer}.ReadCString();" ++
        leaveIf leave s!"{stem}Cp{number} == nullptr" what ++
        Code.line s!"{target} = {stem}Cp{number};")
      (Callee.on parcel buffer [⟨.plain "CString".toList, 0⟩]) := by
  have declared : Tells parcel ("const" ++ " " ++ ("char*" ++ " " ++ s!"{stem}Cp{number}")) [] :=
    (IsPhrase.behind (by decide) (.behind (by decide) (.of_isRun isCopy.isRun))).tells
  have ended : Tells parcel ");" [] := tells_iff.mpr (by simp +decide)
  have fetched : Tells parcel s!"const char* {stem}Cp{number} = {buffer}.ReadCString();"
      (Callee.on parcel buffer [.plain "CString".toList]) :=
    tells_fetch declared (by decide : IsRun "CString") isBuffer ended
      (by simp [toString, Callee.reading])
  have assigned : Tells parcel s!"{target} = {stem}Cp{number};" [] :=
    tells_assignment operand isParcel (IsPhrase.of_isRun isCopy.isRun).tells (by simp [toString])
  exact ((emits_fetch fetched).append_quiet
    (emits_present (.word isCopy.isWord) isParcel leaves tame)).append_quiet (.line assigned)

theorem emits_readDescriptor (tame : Tame what) :
    Emits skip parcel
      (Code.line s!"{target} = {buffer}.ReadFileDescriptor();" ++
        leaveIf leave s!"{target} < 0" what)
      (Callee.on parcel buffer [⟨.plain "FileDescriptor".toList, 0⟩]) := by
  have ended : Tells parcel ");" [] := tells_iff.mpr (by simp +decide)
  have fetched : Tells parcel s!"{target} = {buffer}.ReadFileDescriptor();"
      (Callee.on parcel buffer [.plain "FileDescriptor".toList]) :=
    tells_fetch (operand.tells_self isParcel) (by decide : IsRun "FileDescriptor") isBuffer ended
      (by simp [toString, Callee.reading])
  have negative : Tells parcel s!"{target} < 0" [] := by
    have told : Tells parcel "< 0" [] := tells_iff.mpr (by simp +decide)
    exact .join ' ' (operand.tells_self isParcel) told (by simp [toString]) rfl
  exact (emits_fetch fetched).append_quiet
    (emits_leaveIf leaves tame (operand.not_skips_of_blank (by simp [toString])) negative)

/-- The value of an enum is read as a number first. -/
theorem emits_readEnum {kind base name : String} (isKind : IsKind kind) (isBase : IsRun base)
    (isName : IsRun name) (isTemporary : IsNumbered s!"{stem}Tmp{number}") (tame : Tame what) :
    Emits skip parcel
      (Code.line s!"{base} {stem}Tmp{number} = 0;" ++
        leaveIf leave s!"!{buffer}.Read{kind}({stem}Tmp{number})" what ++
        Code.line s!"{target} = static_cast<{name}>({stem}Tmp{number});")
      (Callee.on parcel buffer [⟨.plain kind.toList, 0⟩]) := by
  have temporary : Tells parcel s!"{stem}Tmp{number}" [] :=
    (IsPhrase.of_isRun isTemporary.isRun).tells
  have zero : Tells parcel "= 0;" [] := tells_iff.mpr (by simp +decide)
  have started : Tells parcel s!"{base} {stem}Tmp{number} = 0;" [] := by
    have declared : Tells parcel (base ++ " " ++ s!"{stem}Tmp{number}") [] :=
      (IsPhrase.behind isBase (.of_isRun isTemporary.isRun)).tells
    exact .join ' ' declared zero (by simp [toString]) rfl
  have read : Tells parcel s!"!{buffer}.Read{kind}({stem}Tmp{number})" _ :=
    tells_read isKind isBuffer temporary (by simp [toString, Callee.reading])
  have assigned : Tells parcel s!"{target} = static_cast<{name}>({stem}Tmp{number});" [] :=
    tells_assignment operand isParcel (tells_cast isName temporary) (by simp [toString])
  exact (Emits.quiet_append (.line started)
    (emits_check leaves tame read (by simp [toString]))).append_quiet (.line assigned)

/-- The bytes of a union are copied out of the parcel. -/
theorem emits_readUnion {copy name label : String} (isName : IsRun name) (isCopy : IsNumbered copy)
    (tame : Tame what) (isLabel : Tame label) :
    Emits skip parcel
      (Code.line
          s!"const {name} *{copy} = reinterpret_cast<const {name} *>({buffer}.ReadUnpadBuffer(sizeof({name})));" ++
        leaveIf leave s!"{copy} == nullptr" what ++
        leaveIf leave s!"memcpy_s(&{target}, sizeof({name}), {copy}, sizeof({name})) != EOK"
          s!"memcpy {label}")
      (Callee.on parcel buffer [⟨.plain "UnpadBuffer".toList, 0⟩]) := by
  have phrase : IsPhrase ("const" ++ " " ++ (name ++ " " ++ ("*" ++ copy ++ " " ++ ("=" ++ " " ++
      ("reinterpret_cast<const" ++ " " ++ name))))) :=
    .behind (by decide) (.behind isName (.behind (.append (by decide) isCopy.isRun)
      (.behind (by decide) (.behind (by decide) (.of_isRun isName)))))
  have ended : Tells parcel s!"sizeof({name})));" [] :=
    tells_iff.mpr (by simp +decide [toString, isName])
  have called : Tells parcel s!"{buffer}.ReadUnpadBuffer(sizeof({name})));"
      (Callee.on parcel buffer [.plain "UnpadBuffer".toList]) :=
    .method isBuffer (by decide : IsRun "ReadUnpadBuffer") ended (by simp [toString])
  have cast : Tells parcel s!"*>({buffer}.ReadUnpadBuffer(sizeof({name})));" _ :=
    .idle (by decide : IsRun "*>") (Callee.ofFunction?_template rfl) called (by simp [toString])
  have fetched : Tells parcel
      s!"const {name} *{copy} = reinterpret_cast<const {name} *>({buffer}.ReadUnpadBuffer(sizeof({name})));" _ :=
    .join ' ' phrase.tells cast (by simp [toString]) rfl
  have sizes : Tells parcel s!" sizeof({name}), {copy}, sizeof({name})) != EOK" [] :=
    tells_iff.mpr (by simp +decide [toString, isName, isCopy.isRun])
  have arguments : Tells parcel s!"&{target}, sizeof({name}), {copy}, sizeof({name})) != EOK" [] :=
    .join ',' (operand.address isParcel) sizes (by simp [toString]) rfl
  have copied : Tells parcel s!"memcpy_s(&{target}, sizeof({name}), {copy}, sizeof({name})) != EOK" [] :=
    .idle (by decide : IsRun "memcpy_s") (by decide) arguments (by simp [toString])
  have isMessage : Tame s!"memcpy {label}" := by simp +decide [toString, isLabel]
  have checked : Emits skip parcel
      (leaveIf leave s!"memcpy_s(&{target}, sizeof({name}), {copy}, sizeof({name})) != EOK"
        s!"memcpy {label}") [] :=
    emits_leaveIf leaves isMessage
      ((by decide : IsRun "memcpy_s").not_skips '(' (by simp [toString]) rfl) copied
  exact ((emits_fetch fetched).append_quiet
    (emits_present (.word isCopy.isWord) isParcel leaves tame)).append_quiet checked

/-- A remote object is cast to its interface. -/
theorem emits_readRemote {remote name label : String} (isName : IsRun name)
    (isRemote : IsNumbered remote) (tame : Tame what) (isLabel : Tame label) :
    Emits skip parcel
      (Code.line s!"sptr<IRemoteObject> {remote} = {buffer}.ReadRemoteObject();" ++
        leaveIf leave s!"{remote} == nullptr" what ++
        Code.line s!"{target} = {name}::CastFrom({remote});" ++
        leaveIf leave s!"{target} == nullptr" s!"cast {label}")
      (Callee.on parcel buffer [⟨.plain "RemoteObject".toList, 0⟩]) := by
  have declared : Tells parcel ("sptr<IRemoteObject>" ++ " " ++ remote) [] :=
    (IsPhrase.behind (by decide) (.of_isRun isRemote.isRun)).tells
  have ended : Tells parcel ");" [] := tells_iff.mpr (by simp +decide)
  have fetched : Tells parcel s!"sptr<IRemoteObject> {remote} = {buffer}.ReadRemoteObject();"
      (Callee.on parcel buffer [.plain "RemoteObject".toList]) :=
    tells_fetch declared (by decide : IsRun "RemoteObject") isBuffer ended
      (by simp [toString, Callee.reading])
  have isCast : IsPhrase (name ++ "::CastFrom") := .of_isRun (.append isName (by decide))
  have cast : Tells parcel (name ++ "::CastFrom(" ++ remote ++ ")") [] :=
    .applied isCast isRemote.isRun (isRemote.ne_parcel isParcel) tells_empty (by simp)
  have assigned : Tells parcel s!"{target} = {name}::CastFrom({remote});" [] :=
    tells_assignment operand isParcel cast (by simp [toString])
  have isMessage : Tame s!"cast {label}" := by simp +decide [toString, isLabel]
  exact (((emits_fetch fetched).append_quiet
    (emits_present (.word isRemote.isWord) isParcel leaves tame)).append_quiet
      (.line assigned)).append_quiet (emits_present operand isParcel leaves isMessage)

theorem emits_readParcelable {name : String} (isName : IsRun name) (tame : Tame what) :
    Emits skip parcel
      (Code.line s!"{target} = {buffer}.ReadStrongParcelable<{name}>();" ++
        leaveIf leave s!"{target} == nullptr" what)
      (Callee.on parcel buffer [⟨.plain "StrongParcelable".toList, 0⟩]) := by
  have isKind : IsRun ("StrongParcelable<" ++ name ++ ">") :=
    .append (.append (by decide) isName) (by decide)
  have ended : Tells parcel ");" [] := tells_iff.mpr (by simp +decide)
  have fetched : Tells parcel s!"{target} = {buffer}.ReadStrongParcelable<{name}>();" _ :=
    tells_fetch (operand.tells_self isParcel) isKind isBuffer ended
      (by simp [toString, Callee.reading])
  have kind : ("StrongParcelable<" ++ name ++ ">").toList.takeWhile (· != '<') =
      "StrongParcelable".toList := by
    simp
  rw [kind] at fetched
  exact (emits_fetch fetched).append_quiet (emits_present operand isParcel leaves tame)

/-- A queue is made of what describes it. -/
theorem emits_readQueue {queueMeta type : String}
    (spaced : type.toList.all spaces = true) (isMeta : IsNumbered queueMeta) (tame : Tame what) :
    Emits skip parcel
      (Code.line
          s!"std::shared_ptr<SharedMemQueueMeta<{type}>> {queueMeta} = SharedMemQueueMeta<{type}>::UnMarshalling({buffer});" ++
        leaveIf leave s!"{queueMeta} == nullptr" what ++
        Code.line s!"{target} = std::make_shared<SharedMemQueue<{type}>>(*{queueMeta});")
      (Callee.on parcel buffer [⟨.queue, 0⟩]) := by
  have phrase : ∀ {text : String}, text.toList.all spaces = true → text.toList.getLast? = some '>' →
      IsPhrase text := fun all ends => .of_spaces all ⟨'>', ends, rfl⟩
  have pointer : IsPhrase s!"std::shared_ptr<SharedMemQueueMeta<{type}>>" :=
    phrase (by simp +decide [toString, spaced])
      (by simp [toString, List.getLast?_cons, List.getLast?_append])
  have made : IsPhrase s!"SharedMemQueueMeta<{type}>" :=
    phrase (by simp +decide [toString, spaced])
      (by simp [toString, List.getLast?_cons, List.getLast?_append])
  have maker : IsPhrase s!"std::make_shared<SharedMemQueue<{type}>>" :=
    phrase (by simp +decide [toString, spaced])
      (by simp [toString, List.getLast?_cons, List.getLast?_append])
  have read : Tells parcel s!"SharedMemQueueMeta<{type}>::UnMarshalling({buffer});"
      (Callee.on parcel buffer [.queue]) :=
    .unmarshalled made isBuffer (by simp [toString, Callee.readingQueue])
  have named : Tells parcel s!"{queueMeta} =" [] :=
    tells_iff.mpr (by simp +decide [toString, isMeta.isRun])
  have declared : Tells parcel s!"{queueMeta} = SharedMemQueueMeta<{type}>::UnMarshalling({buffer});" _ :=
    .join ' ' named read (by simp [toString]) rfl
  have fetched : Tells parcel
      s!"std::shared_ptr<SharedMemQueueMeta<{type}>> {queueMeta} = SharedMemQueueMeta<{type}>::UnMarshalling({buffer});" _ :=
    .join ' ' pointer.tells declared (by simp [toString]) rfl
  have pointee : IsRun ("*" ++ queueMeta) := .append (by decide) isMeta.isRun
  have queue : Tells parcel s!"std::make_shared<SharedMemQueue<{type}>>(*{queueMeta})" [] :=
    .applied maker pointee (isParcel.ne_of_mem (by simp : '*' ∈ ("*" ++ queueMeta).toList) rfl)
      tells_empty (by simp [toString])
  have assigned : Tells parcel s!"{target} = std::make_shared<SharedMemQueue<{type}>>(*{queueMeta});" [] :=
    tells_assignment operand isParcel queue (by simp [toString])
  exact ((emits_fetch fetched).append_quiet
    (emits_present (.word isMeta.isWord) isParcel leaves tame)).append_quiet (.line assigned)

end Reading

/-- A variable that is declared calls nothing. -/
theorem emits_variable {context : EmitContext} {name : String}
    (spelled : context.program.Spelled) (type : TypeId) (isName : IsRun name) :
    Emits skip parcel (Code.line (variableDeclaration context type name)) [] := by
  have phrase := isPhrase_typeName spelled type
  have plain : Tells parcel s!"{typeName context type} {name};" [] := by
    have told : Tells parcel s!"{name};" [] := tells_iff.mpr (by simp +decide [toString, isName])
    exact .join ' ' phrase.tells told (by simp [toString]) rfl
  have zero : Tells parcel s!"{typeName context type} {name} = 0;" [] := by
    have told : Tells parcel s!"{name} = 0;" [] := tells_iff.mpr (by simp +decide [toString, isName])
    exact .join ' ' phrase.tells told (by simp [toString]) rfl
  rw [variableDeclaration]
  cases node : context.types.node type with
  | primitive primitive =>
      cases primitive with
      | boolean =>
          have unset : Tells parcel s!"bool {name} = false;" [] :=
            tells_iff.mpr (by simp +decide [toString, isName])
          exact .line unset
      | fileDescriptor =>
          have unopened : Tells parcel s!"int {name} = -1;" [] :=
            tells_iff.mpr (by simp +decide [toString, isName])
          exact .line unopened
      | string => exact .line plain
      | _ => exact .line zero
  | union record =>
      have words : ∀ name ∈ (context.types.node type).names, Text.IsWord name := spelled.types type
      have isWord : Text.IsWord record.name := words _ (by rw [node]; exact List.mem_cons_self)
      have isType : IsRun (typeName context type) := by
        rw [typeName, typeWithin, node]
        exact isRun_declaredName spelled isWord _
      have emits := @Emits.initialized skip parcel _ _ "" isType (.of_isRun isName) (.inl rfl)
      have same : typeName context type ++ " " ++ name ++ " = \x7b" ++ "" ++ "\x7d;" =
          s!"{typeName context type} {name} = \x7b\x7d;" := String.toList_injective (by simp [toString])
      rwa [same] at emits
  | _ => exact .line plain

theorem tells_clear {target : String} (operand : Operand target) (isParcel : Callee.IsParcel parcel) :
    Tells parcel s!"{target}.clear();" [] := by
  have closed : Tells parcel ");" [] := tells_iff.mpr (by simp +decide)
  exact tells_change operand isParcel (by decide : IsRun "clear") (by decide) closed
    (by simp [toString])

theorem tells_reserve {target size : String} (operand : Operand target)
    (isParcel : Callee.IsParcel parcel) (isSize : IsRun size) :
    Tells parcel s!"{target}.reserve({size});" [] := by
  have closed : Tells parcel s!"{size});" [] := tells_iff.mpr (by simp +decide [toString, isSize])
  exact tells_change operand isParcel (by decide : IsRun "reserve") (by decide) closed
    (by simp [toString])

theorem tells_push {target item : String} (operand : Operand target)
    (isParcel : Callee.IsParcel parcel) (isItem : IsRun item) :
    Tells parcel s!"{target}.push_back({item});" [] := by
  have closed : Tells parcel s!"{item});" [] := tells_iff.mpr (by simp +decide [toString, isItem])
  exact tells_change operand isParcel (by decide : IsRun "push_back") (by decide) closed
    (by simp [toString])

theorem tells_insert {target key item : String} (operand : Operand target)
    (isParcel : Callee.IsParcel parcel) (isKey : IsRun key) (isItem : IsRun item) :
    Tells parcel s!"{target}[{key}] = {item};" [] := by
  have entry : Tells parcel s!"{target}[{key}]" [] := by
    have silent : isSilent ('[' :: (key.toList ++ [']'])) = true := by
      simp +decide [isSilent, isKey.2]
    exact operand.tells isParcel silent (by simp [toString])
  have assigned : Tells parcel s!"= {item};" [] :=
    tells_iff.mpr (by simp +decide [toString, isItem])
  exact .join ' ' entry assigned (by simp [toString]) rfl

end Statements

section Values

variable {context : EmitContext} {skip : Option (List Char)} {parcel : List Char}
variable {buffer leave : String}

/-- Variables of a value are named after the last word of its target. -/
theorem isNumbered_stem {suffix : String} (isWord : Text.OnlyWord suffix.toList) (target : String)
    (depth : Nat) : IsNumbered (lastWord target ++ suffix ++ toString depth) := by
  refine isNumbered_append ?_ depth
  rw [String.toList_append]
  exact Text.OnlyWord.append (isWord_lastWord target).2 isWord

/-- A value of fixed width is read by one call. -/
theorem readWithin_fixed {levels depth : Nat} {type : TypeId} {target suffix : String}
    {primitive : Primitive} (isSuffix : parcelSuffix? primitive = some suffix)
    (node : context.types.node type = .primitive primitive) :
    readWithin context leave buffer (levels + 1) type target depth =
      leaveIf leave s!"!{buffer}.Read{suffix}({target})" s!"read {shown target}" := by
  rw [readWithin, node]
  cases primitive <;> cases isSuffix <;> rfl

theorem wireKind?_of_parcelSuffix {primitive : Primitive} {suffix : String}
    (isSuffix : parcelSuffix? primitive = some suffix) : wireKind? primitive = some suffix := by
  cases primitive <;> first | exact isSuffix | cases isSuffix

/-- The elements of a sequence are read one by one, and put behind those that are there. -/
theorem emits_readSequence {depth : Nat} {element : TypeId} {target size item : String} {body : Code}
    {calls : List WireCall} (spelled : context.program.Spelled) (isParcel : Callee.IsParcel parcel)
    (isBuffer : IsRun buffer) (leaves : Tells parcel leave []) (operand : Operand target)
    (isSize : IsNumbered size) (isItem : IsNumbered item)
    (emits : Emits skip parcel body (Callee.on parcel buffer calls)) :
    let what := s!"read {shown target}"
    Emits skip parcel
      (Code.line s!"uint32_t {size} = 0;" ++
        leaveIf leave s!"!{buffer}.ReadUint32({size})" s!"{what} size" ++
        leaveIf leave s!"{size} > HDI_BUFF_MAX_SIZE / sizeof({typeName context element})"
          s!"check {shown target} size" ++
        Code.lines [s!"{target}.clear();", s!"{target}.reserve({size});"] ++
        countedLoop depth size
          (Code.line (variableDeclaration context element item) ++ body ++
            Code.line s!"{target}.push_back({item});"))
      (Callee.on parcel buffer (counted calls)) := by
  intro what
  have isShown := operand.tame_shown isParcel
  have isMessage : Tame what := by simp +decide [what, toString, isShown]
  have isCheck : Tame s!"check {shown target} size" := by simp +decide [toString, isShown]
  have sized := @emits_readSize skip parcel buffer leave _ _ isBuffer leaves isSize isMessage
  have checked := @emits_checkSize skip parcel leave _ _ _ leaves isSize.isRun
    (isPhrase_typeName spelled element) isCheck
  have emptied : Emits skip parcel
      (Code.lines [s!"{target}.clear();", s!"{target}.reserve({size});"]) [] :=
    .lines (by simpa using
      ⟨tells_clear operand isParcel, tells_reserve operand isParcel isSize.isRun⟩)
  have inside := ((emits_variable spelled element isItem.isRun).quiet_append emits).append_quiet
    (.line (tells_push operand isParcel isItem.isRun))
  have all := ((sized.append_quiet checked).append_quiet emptied).append
    (@emits_countedLoop skip parcel buffer depth size _ _ isSize.isRun inside)
  rwa [← Callee.on_append] at all

theorem emits_readMap {depth : Nat} {key mapped : TypeId} {target size : String}
    {keyItem item : String} {first second : Code} {early late : List WireCall}
    (spelled : context.program.Spelled) (isParcel : Callee.IsParcel parcel)
    (isBuffer : IsRun buffer) (leaves : Tells parcel leave []) (operand : Operand target)
    (isSize : IsNumbered size) (isKey : IsNumbered keyItem) (isItem : IsNumbered item)
    (isFirst : Emits skip parcel first (Callee.on parcel buffer early))
    (isSecond : Emits skip parcel second (Callee.on parcel buffer late)) :
    let what := s!"read {shown target}"
    Emits skip parcel
      (Code.line s!"uint32_t {size} = 0;" ++
        leaveIf leave s!"!{buffer}.ReadUint32({size})" s!"{what} size" ++
        Code.line s!"{target}.clear();" ++
        countedLoop depth size
          (Code.line (variableDeclaration context key keyItem) ++ first ++
            Code.line (variableDeclaration context mapped item) ++ second ++
            Code.line s!"{target}[{keyItem}] = {item};"))
      (Callee.on parcel buffer (counted (early ++ late))) := by
  intro what
  have isShown := operand.tame_shown isParcel
  have isMessage : Tame what := by simp +decide [what, toString, isShown]
  have sized := @emits_readSize skip parcel buffer leave _ _ isBuffer leaves isSize isMessage
  have inside := ((((emits_variable spelled key isKey.isRun).quiet_append isFirst).append_quiet
    (emits_variable spelled mapped isItem.isRun)).append isSecond).append_quiet
      (.line (tells_insert operand isParcel isKey.isRun isItem.isRun))
  rw [← Callee.on_append] at inside
  have all := (sized.append_quiet (.line (tells_clear operand isParcel))).append
    (@emits_countedLoop skip parcel buffer depth size _ _ isSize.isRun inside)
  rwa [← Callee.on_append] at all

theorem emits_readWithin {levels depth : Nat} {type : TypeId} {target : String}
    (spelled : context.program.Spelled) (isParcel : Callee.IsParcel parcel) (isBuffer : IsRun buffer)
    (leaves : Tells parcel leave []) (operand : Operand target) :
    Emits skip parcel (readWithin context leave buffer levels type target depth)
      (Callee.on parcel buffer (wireShape context levels type)) := by
  induction levels generalizing type target depth with
  | zero => exact Callee.on_nil.symm ▸ .nil
  | succ levels ih =>
      have isShown := operand.tame_shown isParcel
      have isMessage : Tame s!"read {shown target}" := by simp +decide [toString, isShown]
      have told := operand.tells_self isParcel
      have words : ∀ name ∈ (context.types.node type).names, Text.IsWord name := spelled.types type
      have numbered : ∀ suffix : String, suffix.toList.all isWordChar = true →
          IsNumbered (lastWord target ++ suffix ++ toString depth) :=
        fun suffix all => isNumbered_stem (List.all_eq_true.mp all) target depth
      have isItem : IsNumbered s!"value{depth}" := isNumbered_append (List.all_eq_true.mp rfl) depth
      cases node : context.types.node type with
      | primitive primitive =>
          cases isSuffix : parcelSuffix? primitive with
          | some suffix =>
              rw [readWithin_fixed isSuffix node, wireShape, node]
              simp only [wireKind?_of_parcelSuffix isSuffix]
              exact emits_check leaves isMessage (tells_read (isKind_parcelSuffix isSuffix) isBuffer
                told (by simp [toString, Callee.reading])) (by simp [toString])
          | none =>
              rw [readWithin, wireShape, node]
              cases primitive with
              | string =>
                  exact @emits_readString skip parcel buffer leave target (lastWord target)
                    (toString depth) _ operand isParcel isBuffer leaves (numbered "Cp" rfl) isMessage
              | fileDescriptor => exact emits_readDescriptor operand isParcel isBuffer leaves isMessage
              | void => exact Callee.on_nil.symm ▸ .nil
              | _ => cases isSuffix
      | enum declared =>
          rw [readWithin, wireShape, node]
          have isWord : Text.IsWord declared.name := words _ (by rw [node]; exact List.mem_cons_self)
          cases isSuffix : parcelSuffix? declared.base with
          | none =>
              simp only [isSuffix]
              exact Callee.on_nil.symm ▸ .nil
          | some suffix =>
              simp only [isSuffix]
              exact @emits_readEnum skip parcel buffer leave target (lastWord target)
                (toString depth) _ operand isParcel isBuffer leaves _ _ _
                (isKind_parcelSuffix isSuffix) (isRun_primitiveType declared.base)
                (isRun_declaredName spelled isWord _) (numbered "Tmp" rfl) isMessage
      | struct record =>
          rw [readWithin, wireShape, node]
          have isWord : Text.IsWord record.name := words _ (by rw [node]; exact List.mem_cons_self)
          exact emits_check leaves isMessage (tells_readBlock (isRun_declaredName spelled isWord _)
            (isName_declaredName spelled isWord _) isBuffer told) (by simp [toString])
      | union record =>
          rw [readWithin, wireShape, node]
          have isWord : Text.IsWord record.name := words _ (by rw [node]; exact List.mem_cons_self)
          exact emits_readUnion operand isParcel isBuffer leaves
            (isRun_declaredName spelled isWord _) (numbered "Cp" rfl) isMessage isShown
      | array element | list element =>
          rw [readWithin, wireShape, node]
          exact emits_readSequence spelled isParcel isBuffer leaves operand (numbered "Size" rfl) isItem
            (@ih (depth + 1) element _ (.word isItem.isWord))
      | map key mapped =>
          rw [readWithin, wireShape, node]
          have isKey : IsNumbered s!"key{depth}" := isNumbered_append (List.all_eq_true.mp rfl) depth
          exact emits_readMap spelled isParcel isBuffer leaves operand (numbered "Size" rfl) isKey isItem
            (@ih (depth + 1) key _ (.word isKey.isWord)) (@ih (depth + 1) mapped _ (.word isItem.isWord))
      | interface declared =>
          rw [readWithin, wireShape, node]
          have isWord : Text.IsWord declared.name := words _ (by rw [node]; exact List.mem_cons_self)
          exact emits_readRemote operand isParcel isBuffer leaves
            (isRun_declaredName spelled isWord _) (numbered "Remote" rfl) isMessage isShown
      | sequenceable declared =>
          rw [readWithin, wireShape, node]
          have isWord : Text.IsWord declared.name := words _ (by rw [node]; exact List.mem_cons_self)
          exact emits_readParcelable operand isParcel isBuffer leaves
            (isRun_declaredName spelled isWord _) isMessage
      | queue element =>
          rw [readWithin, wireShape, node]
          exact emits_readQueue operand isParcel isBuffer leaves (spaces_typeWithin spelled _ element)
            (numbered "Meta" rfl) isMessage

end Values

end CppCode

end DriverIdl
