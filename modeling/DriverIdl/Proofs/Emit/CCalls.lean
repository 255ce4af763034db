import DriverIdl.Emit.Marshalling.C
import DriverIdl.Proofs.Emit.Phrases
import DriverIdl.Proofs.Program.Spelling

/-!
# What C statements call

Writing a value and reading it back call the same functions of the buffer.  A value is a single one,
or a sequence with its length in front: a sequence inside of a sequence has no length, so there is no
code for it.
-/

namespace DriverIdl

open CodeLexeme

namespace CCode

/-- What stands for a value: a name, what a pointer refers to, or an element of a sequence. -/
inductive Operand : String → Prop where
  | name {text : String} (isRun : IsRun text) (plain : text.toList.head? ≠ some '*') : Operand text
  | pointee {text : String} (isRun : IsRun text) : Operand ("*" ++ text)
  | element {text : String} (isRun : IsRun text) (depth : Nat) : Operand (elementOf depth text)

theorem isRun_counter (depth : Nat) : IsRun (counter depth) := by
  unfold counter
  split <;> decide

theorem isPhrase_element {sequence pointer : String} (isRun : IsRun sequence) (depth : Nat)
    (isPointer : pointer = "" ∨ pointer = "&") : IsPhrase (pointer ++ elementOf depth sequence) := by
  have isIndex := isRun_counter depth
  rcases isPointer with rfl | rfl
  · refine ⟨[.sign '(', .run sequence.toList, .sign ')'], '[' :: ((counter depth).toList ++ [']']),
      by simp [isIndex], rfl, fun _ _ => by simp [isRun], fun rest => ?_⟩
    simp +decide [elementOf, toString, isRun, isIndex, extend_extend]
  · refine ⟨[.run ['&'], .sign '(', .run sequence.toList, .sign ')'],
      '[' :: ((counter depth).toList ++ [']']), by simp [isIndex], rfl,
      fun _ _ => by simp +decide [isRun], fun rest => ?_⟩
    simp +decide [elementOf, toString, isRun, isIndex, extend_extend]

namespace Operand

variable {text : String}

theorem isPhrase (operand : Operand text) : IsPhrase text := by
  cases operand with
  | name isRun _ => exact .of_isRun isRun
  | pointee isRun => exact .of_isRun (.append (by decide) isRun)
  | element isRun depth =>
      have phrase := isPhrase_element isRun depth (.inl rfl)
      rwa [String.empty_append] at phrase

theorem address (operand : Operand text) : IsPhrase (addressOf text) := by
  cases operand with
  | name isRun plain =>
      have same : addressOf text = "&" ++ text := by
        rw [addressOf]
        split
        · rename_i inner starts
          simp [starts] at plain
        · rfl
      rw [same]
      exact .of_isRun (.append (by decide) isRun)
  | @pointee text isRun =>
      have same : addressOf ("*" ++ text) = text := by simp [addressOf]
      rw [same]
      exact .of_isRun isRun
  | @element text isRun depth =>
      have same : addressOf (elementOf depth text) = "&" ++ elementOf depth text := by
        simp [addressOf, elementOf, toString]
      rw [same]
      exact isPhrase_element isRun depth (.inr rfl)

/-- What starts with a word is no pointer that stands for a value. -/
theorem plain_of_isWord {word : String} (isWord : Text.IsWord word) (rest : List Char) :
    (word.toList ++ rest).head? ≠ some '*' := by
  obtain ⟨first, others, spelled⟩ := List.exists_cons_of_ne_nil isWord.1
  have isFirst : isWordChar first = true := isWord.2 first (by simp [spelled])
  rw [spelled, List.cons_append, List.head?_cons, ne_eq, Option.some_inj]
  rintro rfl
  exact absurd isFirst (by decide)

theorem word {name : String} (isWord : Text.IsWord name) : Operand name :=
  .name isWord.isRun (by simpa using plain_of_isWord isWord [])

theorem starting {word rest : String} (isWord : Text.IsWord word) (isRun : IsRun (word ++ rest)) :
    Operand (word ++ rest) :=
  .name isRun (by simpa using plain_of_isWord isWord rest.toList)

theorem tame_shown (operand : Operand text) : Tame (shown text) := by
  apply List.all_eq_true.mpr
  intro character inside
  rw [shown, String.toList_ofList] at inside
  exact List.all_eq_true.mp operand.isPhrase.tame character
    ((List.dropWhile_suffix _).subset inside)

end Operand

section Statements

variable {parcel : List Char} {buffer : String}

theorem tells_isNull {text : String} (phrase : IsPhrase text) :
    Tells parcel s!"{text} == NULL" [] := by
  have told : Tells parcel "== NULL" [] := tells_iff.mpr (by simp +decide)
  exact .join ' ' phrase.tells told (by simp [toString]) rfl

theorem tells_isNegative {text : String} (phrase : IsPhrase text) :
    Tells parcel s!"{text} < 0" [] := by
  have told : Tells parcel "< 0" [] := tells_iff.mpr (by simp +decide)
  exact .join ' ' phrase.tells told (by simp [toString]) rfl

theorem tells_assignment {target source : String} (isTarget : IsPhrase target)
    (isSource : IsRun source) : Tells parcel s!"{target} = {source};" [] := by
  have told : Tells parcel s!"= {source};" [] := tells_iff.mpr (by simp +decide [toString, isSource])
  exact .join ' ' isTarget.tells told (by simp [toString]) rfl

/-- What a failed step does calls nothing. -/
def Recovery.Named : Recovery → Prop
  | .jump result label => (∀ name ∈ result, IsRun name) ∧ IsRun label
  | .returnFalse => True

theorem emits_leaveWith {recovery : Recovery} {what code : String} (named : recovery.Named)
    (tame : Tame what) (isCode : IsRun code) :
    Emits none parcel (recovery.leaveWith what code) [] := by
  have message : Tame (what ++ " failed!") := by simp +decide [tame]
  refine (Emits.logError message).append ?_
  cases recovery with
  | jump result label =>
      have leaves : Tells parcel s!"goto {label};" [] :=
        tells_iff.mpr (by simp +decide [toString, named.2])
      cases result with
      | none => exact .line leaves
      | some name =>
          apply Emits.lines
          rintro text listed
          rcases List.mem_pair.mp listed with rfl | rfl
          · exact tells_assignment (.of_isRun (named.1 name rfl)) isCode
          · exact leaves
  | returnFalse =>
      have leaves : Tells parcel "return false;" [] := tells_iff.mpr (by simp +decide)
      exact .line leaves

theorem emits_leaveIfWith {recovery : Recovery} {failed what code : String} {callees : List Callee}
    (named : recovery.Named) (told : Tells parcel failed callees) (tame : Tame what)
    (isCode : IsRun code) :
    Emits none parcel (leaveIfWith recovery failed what code) (WireCall.ofCallees callees) := by
  have both := Emits.braced (.if told (not_skips_none failed)) (emits_leaveWith named tame isCode)
  rwa [Block.around, List.append_nil] at both

theorem emits_leaveIf {recovery : Recovery} {failed what : String} {callees : List Callee}
    (named : recovery.Named) (told : Tells parcel failed callees) (tame : Tame what) :
    Emits none parcel (leaveIf recovery failed what) (WireCall.ofCallees callees) :=
  emits_leaveIfWith named told tame (by decide)

end Statements

section Kinds

/-- What the names of the buffer functions for a primitive type end with. -/
def wireKind? : Primitive → Option String
  | .string => some "String"
  | .fileDescriptor => some "FileDescriptor"
  | primitive => bufferSuffix? primitive

/-- A buffer has functions of these names that write and read. -/
def IsKind (kind : String) : Prop :=
  IsRun kind ∧
    Callee.ofFunction? (Callee.onBuffer ++ Callee.writing ++ kind.toList) = some (.plain kind.toList) ∧
    Callee.ofFunction? (Callee.onBuffer ++ Callee.reading ++ kind.toList) = some (.plain kind.toList)

instance (kind : String) : Decidable (IsKind kind) := inferInstanceAs (Decidable (_ ∧ _))

theorem isKind_wireKind {primitive : Primitive} {kind : String}
    (isKind : wireKind? primitive = some kind) : IsKind kind := by
  cases primitive <;> cases isKind <;> decide

end Kinds

section Values

variable {types : TypeArena} {recovery : Recovery} {parcel : List Char} {buffer : String}

/-- What a value is written and read with that is no sequence. -/
def flatCallees : TypeNode → List Callee
  | .primitive primitive => (wireKind? primitive).toList.map fun kind => .plain kind.toList
  | .enum declared => (bufferSuffix? declared.base).toList.map fun kind => .plain kind.toList
  | .struct record => [.block record.name.toList]
  | .union _ => [.plain "UnpadBuffer".toList]
  | .interface _ => [.plain "RemoteService".toList]
  | _ => []

/-- A function of a buffer that writes. -/
theorem tells_write {text kind arguments : String} (isKind : IsKind kind) (isBuffer : IsRun buffer)
    (told : Tells parcel arguments [])
    (spelled : text.toList = '!' :: (Callee.onBuffer ++ (Callee.writing ++ (kind.toList ++
      '(' :: (buffer.toList ++ ',' :: ' ' :: (arguments.toList ++ [')'])))))) :
    Tells parcel text (Callee.on parcel buffer [.plain kind.toList]) := by
  have isRun : IsRun ("HdfSbufWrite" ++ kind) := .append (by decide) isKind.1
  have name : ("HdfSbufWrite" ++ kind).toList = Callee.onBuffer ++ Callee.writing ++ kind.toList := by
    simp [Callee.onBuffer, Callee.writing]
  have calls : Tells parcel text _ := .callNot isRun isBuffer told (by rw [spelled, name]; simp)
  rwa [name, isKind.2.1] at calls

theorem tells_writeKind {kind arguments : String} (isKind : IsKind kind) (isBuffer : IsRun buffer)
    (told : Tells parcel arguments []) :
    Tells parcel s!"!HdfSbufWrite{kind}({buffer}, {arguments})"
      (Callee.on parcel buffer [.plain kind.toList]) :=
  tells_write isKind isBuffer told (by simp [toString, Callee.onBuffer, Callee.writing])

theorem flatCallees_primitive {primitive : Primitive} {kind : String}
    (isKind : wireKind? primitive = some kind) :
    flatCallees (.primitive primitive) = [.plain kind.toList] := by
  simp [flatCallees, isKind]

/-- A primitive value is written by one call, unless there is nothing to write. -/
theorem writeWithin_primitive {levels depth : Nat} {type : TypeId} {value : String}
    {length : Option String} {code : Code} {primitive : Primitive}
    (node : types.node type = .primitive primitive)
    (written : writeWithin types recovery buffer (levels + 1) type value length depth = .ok code) :
    (wireKind? primitive = none ∧ code = []) ∨
      ∃ kind arguments, wireKind? primitive = some kind ∧
        (arguments = value ∨ arguments = value ++ " ? 1 : 0") ∧
        code = leaveIf recovery s!"!HdfSbufWrite{kind}({buffer}, {arguments})"
          ("write " ++ shown value) := by
  rw [writeWithin, node] at written
  cases primitive with
  | void =>
      cases written
      exact .inl ⟨rfl, rfl⟩
  | boolean =>
      cases written
      exact .inr ⟨"Int8", _, rfl, .inr rfl, by simp [toString, String.append_assoc]⟩
  | string =>
      cases written
      exact .inr ⟨"String", _, rfl, .inl rfl, by simp [toString]⟩
  | fileDescriptor =>
      cases written
      exact .inr ⟨"FileDescriptor", _, rfl, .inl rfl, by simp [toString]⟩
  | _ =>
      cases written
      exact .inr ⟨_, _, rfl, .inl rfl, rfl⟩

theorem isRun_primitiveType (primitive : Primitive) : IsRun (primitiveType primitive) := by
  cases primitive <;> decide

theorem tells_cast {cast value : String} (isCast : IsRun cast) (isValue : IsPhrase value) :
    Tells parcel s!"({cast}){value}" [] := by
  obtain ⟨calm, quiet⟩ := tells_iff.mp (@IsPhrase.tells parcel _ isValue)
  refine tells_iff.mpr ⟨?_, ?_⟩
  · simpa +decide [toString, isCast] using calm
  · simpa [toString, isCast] using quiet

theorem tells_bytes {name address : String} (isName : IsRun name) (isAddress : IsPhrase address) :
    Tells parcel s!"(const uint8_t *){address}, sizeof(union {name})" [] := by
  obtain ⟨front, last, undotted, calm, quiet, lexed⟩ := isAddress
  exact tells_iff.mpr (by simpa +decide [toString, isName, lexed, undotted, quiet] using calm)

/-- A member of an object is no parcel function. -/
theorem ofFunction?_asObject (object : List Char) :
    Callee.ofFunction? (object ++ ['-', '>', 'A', 's', 'O', 'b', 'j', 'e', 'c', 't']) = none := by
  apply @Callee.ofFunction?_eq_none _ '-' (by simp) rfl
  · intro same
    have last := congrArg List.getLast? same
    simp [Callee.writingQueue] at last
  · rintro ⟨front, same⟩
    have last := congrArg List.getLast? same
    simp [Callee.readingQueue] at last

theorem tells_asObject {value : String} (isValue : IsPhrase value) :
    Tells parcel s!"{value}->AsObject({value})" [] := by
  obtain ⟨front, last, undotted, calm, quiet, lexed⟩ := isValue
  exact tells_iff.mpr (by
    simpa +decide [toString, lexed, undotted, quiet, ofFunction?_asObject] using calm)

theorem tells_writeBlock {name address : String} (isWord : Text.IsWord name)
    (isBuffer : IsRun buffer) (told : Tells parcel address []) :
    Tells parcel s!"!{name}BlockMarshalling({buffer}, {address})"
      (Callee.on parcel buffer [.block name.toList]) := by
  have isRun : IsRun (name ++ "BlockMarshalling") := .append isWord.isRun (by decide)
  have function : (name ++ "BlockMarshalling").toList = name.toList ++ Callee.writingBlock := by
    simp [Callee.writingBlock]
  have calls : Tells parcel s!"!{name}BlockMarshalling({buffer}, {address})" _ :=
    .callNot isRun isBuffer told (by simp [toString])
  rwa [function, Callee.ofFunction?_writingBlock isWord.isName] at calls

/-- An enum has the suffix of its base type. -/
theorem bufferSuffix_eq_ok {type : TypeId} {primitive : Primitive} {rest : String → Emit Code}
    {code : Code} (written : (bufferSuffix types type primitive >>= rest) = .ok code) :
    ∃ suffix, bufferSuffix? primitive = some suffix ∧ rest suffix = .ok code := by
  rw [bufferSuffix] at written
  cases found : bufferSuffix? primitive with
  | none =>
      rw [found] at written
      cases written
  | some suffix =>
      rw [found] at written
      exact ⟨suffix, rfl, written⟩

theorem isKind_bufferSuffix {primitive : Primitive} {suffix : String}
    (isSuffix : bufferSuffix? primitive = some suffix) : IsKind suffix := by
  apply @isKind_wireKind primitive
  cases primitive <;> first | exact isSuffix | cases isSuffix

/-- A call that must succeed. -/
theorem emits_check {failed what : String} {callees : List Callee} (named : recovery.Named)
    (tame : Tame what) (told : Tells parcel failed (Callee.on parcel buffer callees)) :
    Emits none parcel (leaveIf recovery failed what)
      (Callee.on parcel buffer (WireCall.ofCallees callees)) := by
  have emits := emits_leaveIf named told tame
  rwa [WireCall.ofCallees, Callee.on_map] at emits

theorem emits_fetch {text : String} {callees : List Callee}
    (told : Tells parcel text (Callee.on parcel buffer callees)) :
    Emits none parcel (Code.line text)
      (Callee.on parcel buffer (WireCall.ofCallees callees)) := by
  have emits := @Emits.line none _ _ _ told
  rwa [WireCall.ofCallees, Callee.on_map] at emits

theorem emits_writeWithin_flat {levels depth : Nat} {type : TypeId} {value : String}
    {length : Option String} {code : Code} (spelled : types.Spelled) (named : recovery.Named)
    (isBuffer : IsRun buffer) (operand : Operand value) (flat : types.element? type = none)
    (written : writeWithin types recovery buffer (levels + 1) type value length depth = .ok code) :
    Emits none parcel code
      (Callee.on parcel buffer (WireCall.ofCallees (flatCallees (types.node type)))) := by
  have isValue := operand.isPhrase
  have tame : Tame ("write " ++ shown value) := by simp +decide [operand.tame_shown]
  have leaves : ∀ {failed callees}, Tells parcel failed (Callee.on parcel buffer callees) →
      Emits none parcel (leaveIf recovery failed ("write " ++ shown value))
        (Callee.on parcel buffer (WireCall.ofCallees callees)) := emits_check named tame
  cases node : types.node type with
  | primitive primitive =>
      rcases writeWithin_primitive node written with ⟨isVoid, rfl⟩ | ⟨kind, arguments, isKind, isArgument, rfl⟩
      · rw [flatCallees, isVoid]
        exact Callee.on_nil.symm ▸ .nil
      · rw [flatCallees_primitive isKind]
        have told : Tells parcel arguments [] := by
          rcases isArgument with rfl | rfl
          · exact isValue.tells
          · have told : Tells parcel "? 1 : 0" [] := tells_iff.mpr (by simp +decide)
            exact .join ' ' isValue.tells told (by simp) rfl
        exact leaves (tells_writeKind (isKind_wireKind isKind) isBuffer told)
  | enum declared =>
      rw [writeWithin, node] at written
      obtain ⟨suffix, isSuffix, written⟩ := bufferSuffix_eq_ok written
      cases written
      rw [flatCallees, isSuffix]
      exact leaves (tells_write (isKind_bufferSuffix isSuffix) isBuffer
        (tells_cast (isRun_primitiveType declared.base) isValue)
        (by simp [toString, Callee.onBuffer, Callee.writing]))
  | struct record =>
      rw [writeWithin, node] at written
      cases written
      have isWord : Text.IsWord record.name := spelled type _ (by rw [node]; exact List.mem_cons_self)
      exact leaves (tells_writeBlock isWord isBuffer operand.address.tells)
  | union record =>
      rw [writeWithin, node] at written
      cases written
      have isWord : Text.IsWord record.name := spelled type _ (by rw [node]; exact List.mem_cons_self)
      exact leaves (tells_write (by decide : IsKind "UnpadBuffer") isBuffer
        (tells_bytes isWord.isRun operand.address)
        (by simp [toString, Callee.onBuffer, Callee.writing]))
  | array element => simp [TypeArena.element?, node] at flat
  | list element => simp [TypeArena.element?, node] at flat
  | interface declared =>
      rw [writeWithin, node] at written
      cases written
      exact leaves (tells_write (by decide : IsKind "RemoteService") isBuffer (tells_asObject isValue)
        (by simp [toString, Callee.onBuffer, Callee.writing]))
  | map key mapped =>
      rw [writeWithin, node] at written
      cases written
  | sequenceable declared =>
      rw [writeWithin, node] at written
      cases written
  | queue element =>
      rw [writeWithin, node] at written
      cases written

/-- A function of a buffer that reads. -/
theorem tells_read {text kind arguments : String} (isKind : IsKind kind) (isBuffer : IsRun buffer)
    (told : Tells parcel arguments [])
    (spelled : text.toList = '!' :: (Callee.onBuffer ++ (Callee.reading ++ (kind.toList ++
      '(' :: (buffer.toList ++ ',' :: ' ' :: (arguments.toList ++ [')'])))))) :
    Tells parcel text (Callee.on parcel buffer [.plain kind.toList]) := by
  have isRun : IsRun ("HdfSbufRead" ++ kind) := .append (by decide) isKind.1
  have name : ("HdfSbufRead" ++ kind).toList = Callee.onBuffer ++ Callee.reading ++ kind.toList := by
    simp [Callee.onBuffer, Callee.reading]
  have calls : Tells parcel text _ := .callNot isRun isBuffer told (by rw [spelled, name]; simp)
  rwa [name, isKind.2.2] at calls

/-- What a buffer gives is assigned. -/
theorem tells_fetch {text target kind : String} (isTarget : IsPhrase target) (isKind : IsKind kind)
    (isBuffer : IsRun buffer)
    (spelled : text.toList = target.toList ++ ' ' :: '=' :: ' ' :: (Callee.onBuffer ++
      (Callee.reading ++ (kind.toList ++ '(' :: (buffer.toList ++ [')', ';']))))) :
    Tells parcel text (Callee.on parcel buffer [.plain kind.toList]) := by
  have isRun : IsRun ("HdfSbufRead" ++ kind) := .append (by decide) isKind.1
  have name : ("HdfSbufRead" ++ kind).toList = Callee.onBuffer ++ Callee.reading ++ kind.toList := by
    simp [Callee.onBuffer, Callee.reading]
  have calls : Tells parcel text _ := .fetch isTarget.tells isRun isBuffer (by rw [spelled, name]; simp)
  rwa [name, isKind.2.2] at calls

theorem onlyWord_identifierFrom (started skipped : Bool) (text : List Char) :
    Text.OnlyWord (identifierFrom started skipped text) := by
  induction text generalizing started skipped with
  | nil =>
      intro character impossible
      cases impossible
  | cons character rest ih =>
      rw [identifierFrom]
      split
      · rename_i isWord
        intro other inside
        rcases List.mem_cons.mp inside with rfl | later
        · split
          · exact Text.isWordChar_toUpper isWord
          · exact isWord
        · exact ih _ _ other later
      · exact ih _ _

theorem isRun_identifier {suffix : String} (isRun : IsRun suffix) (text : String) :
    IsRun (identifier text ++ suffix) := by
  refine ⟨by rw [String.toList_append]; exact List.append_ne_nil_of_right_ne_nil _ isRun.1, ?_⟩
  rw [String.toList_append, List.all_append, isRun.2, Bool.and_true, identifier,
    String.toList_ofList, List.all_eq_true]
  exact fun character inside => joins_of_isWordChar (onlyWord_identifierFrom _ _ _ character inside)

theorem tells_readKind {kind arguments : String} (isKind : IsKind kind) (isBuffer : IsRun buffer)
    (told : Tells parcel arguments []) :
    Tells parcel s!"!HdfSbufRead{kind}({buffer}, {arguments})"
      (Callee.on parcel buffer [.plain kind.toList]) :=
  tells_read isKind isBuffer told (by simp [toString, Callee.onBuffer, Callee.reading])

theorem tells_readInto {kind name : String} (isKind : IsKind kind) (isBuffer : IsRun buffer)
    (isName : IsRun name) :
    Tells parcel s!"!HdfSbufRead{kind}({buffer}, &{name})"
      (Callee.on parcel buffer [.plain kind.toList]) := by
  have isAddress : IsRun ("&" ++ name) := .append (by decide) isName
  exact tells_read isKind isBuffer (IsPhrase.of_isRun isAddress).tells
    (by simp [toString, Callee.onBuffer, Callee.reading])

theorem tells_flagAddress {address : String} (isAddress : IsPhrase address) :
    Tells parcel s!"(int8_t *){address}" [] := by
  obtain ⟨front, last, undotted, calm, quiet, lexed⟩ := isAddress
  have whole := lexed []
  simp only [List.append_nil, lexFrom_nil, extend_nil] at whole
  exact tells_iff.mpr (by simpa +decide [toString, whole, undotted, quiet] using calm)

theorem tells_copied {target copy : String} (isTarget : IsPhrase target) (isCopy : IsRun copy) :
    Tells parcel s!"{target} = strdup({copy});" [] := by
  have told : Tells parcel s!"= strdup({copy});" [] :=
    tells_iff.mpr (by simp +decide [toString, isCopy])
  exact .join ' ' isTarget.tells told (by simp [toString]) rfl

theorem tells_zero {type name : String} (isType : IsPhrase type) (isName : IsRun name) :
    Tells parcel s!"{type} {name} = 0;" [] := by
  have told : Tells parcel s!"{name} = 0;" [] :=
    tells_iff.mpr (by simp +decide [toString, isName])
  exact .join ' ' isType.tells told (by simp [toString]) rfl

theorem tells_enumerator {target name copy : String} (isTarget : IsPhrase target)
    (isName : IsRun name) (isCopy : IsRun copy) :
    Tells parcel s!"{target} = (enum {name}){copy};" [] := by
  have told : Tells parcel s!"= (enum {name}){copy};" [] :=
    tells_iff.mpr (by simp +decide [toString, isName, isCopy])
  exact .join ' ' isTarget.tells told (by simp [toString]) rfl

theorem tells_fetchString {copy : String} (isCopy : IsRun copy) (isBuffer : IsRun buffer) :
    Tells parcel s!"const char *{copy} = HdfSbufReadString({buffer});"
      (Callee.on parcel buffer [.plain "String".toList]) := by
  have declared : IsPhrase ("const" ++ " " ++ ("char" ++ " " ++ ("*" ++ copy))) :=
    .behind (by decide) (.behind (by decide) (.append (.of_isRun (by decide)) isCopy))
  exact tells_fetch declared (by decide) isBuffer
    (by simp [toString, Callee.onBuffer, Callee.reading])

theorem tells_fetchDescriptor {target : String} (isTarget : IsPhrase target)
    (isBuffer : IsRun buffer) :
    Tells parcel s!"{target} = HdfSbufReadFileDescriptor({buffer});"
      (Callee.on parcel buffer [.plain "FileDescriptor".toList]) :=
  tells_fetch isTarget (by decide) isBuffer (by simp [toString, Callee.onBuffer, Callee.reading])

theorem tells_fetchRemote {remote : String} (isRemote : IsRun remote) (isBuffer : IsRun buffer) :
    Tells parcel s!"struct HdfRemoteService *{remote} = HdfSbufReadRemoteService({buffer});"
      (Callee.on parcel buffer [.plain "RemoteService".toList]) := by
  have declared : IsPhrase ("struct" ++ " " ++ ("HdfRemoteService" ++ " " ++ ("*" ++ remote))) :=
    .behind (by decide) (.behind (by decide) (.append (.of_isRun (by decide)) isRemote))
  exact tells_fetch declared (by decide) isBuffer
    (by simp [toString, Callee.onBuffer, Callee.reading])

theorem tells_fetchBytes {name copy : String} (isName : IsRun name) (isCopy : IsRun copy)
    (isBuffer : IsRun buffer) :
    Tells parcel
      s!"const union {name} *{copy} = (const union {name} *)HdfSbufReadUnpadBuffer({buffer}, sizeof(union {name}));"
      (Callee.on parcel buffer [.plain "UnpadBuffer".toList]) := by
  have declared : Tells parcel s!"const union {name} *{copy} = (const union {name} *" [] :=
    tells_iff.mpr (by simp +decide [toString, isName, isCopy])
  have tail : Tells parcel s!" sizeof(union {name}));" [] :=
    tells_iff.mpr (by simp +decide [toString, isName])
  have called : Tells parcel ("HdfSbufReadUnpadBuffer(" ++ buffer ++ s!", sizeof(union {name}));")
      (Callee.on parcel buffer [.plain "UnpadBuffer".toList]) :=
    .call ',' (by decide : IsRun "HdfSbufReadUnpadBuffer") isBuffer tail (by simp [toString]) rfl
  exact .join ')' declared called (by simp [toString]) rfl

theorem tells_copyBytes {name address copy : String} (isName : IsRun name)
    (isAddress : IsPhrase address) (isCopy : IsRun copy) :
    Tells parcel
      s!"memcpy_s({address}, sizeof(union {name}), {copy}, sizeof(union {name})) != EOK" [] := by
  obtain ⟨front, last, undotted, calm, quiet, lexed⟩ := isAddress
  exact tells_iff.mpr
    (by simpa +decide [toString, isName, isCopy, lexed, undotted, quiet] using calm)

theorem tells_bind {target name remote : String} (isParcel : Callee.IsParcel parcel)
    (isTarget : IsPhrase target) (isName : IsRun name) (isRemote : IsRun remote)
    (ends : remote.toList.getLast? = some 'e') :
    Tells parcel s!"{target} = {name}GetFromRemote({remote});" [] := by
  have other : remote.toList ≠ parcel := isParcel.ne_of_getLast? ends (by decide)
  have told : Tells parcel s!"= {name}GetFromRemote({remote});" [] :=
    tells_iff.mpr (by simp +decide [toString, isName, isRemote, other])
  exact .join ' ' isTarget.tells told (by simp [toString]) rfl

theorem tells_readBlock {name address : String} (isWord : Text.IsWord name)
    (isBuffer : IsRun buffer) (told : Tells parcel address []) :
    Tells parcel s!"!{name}BlockUnmarshalling({buffer}, {address})"
      (Callee.on parcel buffer [.block name.toList]) := by
  have isRun : IsRun (name ++ "BlockUnmarshalling") := .append isWord.isRun (by decide)
  have function : (name ++ "BlockUnmarshalling").toList = name.toList ++ Callee.readingBlock := by
    simp [Callee.readingBlock]
  have calls : Tells parcel s!"!{name}BlockUnmarshalling({buffer}, {address})" _ :=
    .callNot isRun isBuffer told (by simp [toString])
  rwa [function, Callee.ofFunction?_readingBlock isWord.isName] at calls

/-- A value of fixed width is read by one call. -/
theorem readWithin_fixed {levels depth : Nat} {type : TypeId} {target suffix : String}
    {length : Option String} {code : Code} {primitive : Primitive}
    (isSuffix : bufferSuffix? primitive = some suffix) (other : primitive ≠ .boolean)
    (node : types.node type = .primitive primitive)
    (rendered : readWithin types recovery buffer (levels + 1) type target length depth = .ok code) :
    code = leaveIf recovery s!"!HdfSbufRead{suffix}({buffer}, {addressOf target})"
      ("read " ++ shown target) := by
  rw [readWithin, node] at rendered
  cases primitive <;> first | exact absurd rfl other | (cases isSuffix; try cases rendered; try rfl)

theorem emits_readWithin_flat {levels depth : Nat} {type : TypeId} {target : String}
    {length : Option String} {code : Code} (spelled : types.Spelled) (named : recovery.Named)
    (isParcel : Callee.IsParcel parcel) (isBuffer : IsRun buffer) (operand : Operand target)
    (flat : types.element? type = none)
    (rendered : readWithin types recovery buffer (levels + 1) type target length depth = .ok code) :
    Emits none parcel code
      (Callee.on parcel buffer (WireCall.ofCallees (flatCallees (types.node type)))) := by
  have isTarget := operand.isPhrase
  have isShown := operand.tame_shown
  have tame : Tame ("read " ++ shown target) := by simp +decide [isShown]
  have words : ∀ name ∈ (types.node type).names, Text.IsWord name := spelled type
  have isCopy := @isRun_identifier "Cp" (by decide) target
  have isTemporary := @isRun_identifier "Tmp" (by decide) target
  have isRemote := @isRun_identifier "Remote" (by decide) target
  have leaves : ∀ {failed callees}, Tells parcel failed (Callee.on parcel buffer callees) →
      Emits none parcel (leaveIf recovery failed ("read " ++ shown target))
        (Callee.on parcel buffer (WireCall.ofCallees callees)) := emits_check named tame
  have quiet : ∀ {failed}, Tells parcel failed [] →
      Emits none parcel (leaveIf recovery failed ("read " ++ shown target)) [] :=
    fun told => emits_leaveIf named told tame
  cases node : types.node type with
  | primitive primitive =>
      cases primitive with
      | boolean =>
          rw [readWithin, node] at rendered
          cases rendered
          exact leaves (tells_read (by decide : IsKind "Int8") isBuffer
            (tells_flagAddress operand.address) (by simp [toString, Callee.onBuffer, Callee.reading]))
      | string =>
          rw [readWithin, node] at rendered
          cases rendered
          have isDuplicate : Tame ("duplicate " ++ shown target) := by simp +decide [isShown]
          have fetched := @emits_fetch parcel _ _ _ (tells_fetchString isCopy isBuffer)
          exact ((fetched.append_quiet (quiet (tells_isNull (.of_isRun isCopy)))).append_quiet
            (.line (tells_copied isTarget isCopy))).append_quiet
              (emits_leaveIf named (tells_isNull isTarget) isDuplicate)
      | fileDescriptor =>
          rw [readWithin, node] at rendered
          cases rendered
          have fetched := @emits_fetch parcel _ _ _ (tells_fetchDescriptor isTarget isBuffer)
          exact fetched.append_quiet (quiet (tells_isNegative isTarget))
      | void =>
          rw [readWithin, node] at rendered
          cases rendered
          exact Callee.on_nil.symm ▸ .nil
      | _ =>
          obtain rfl := readWithin_fixed rfl (by decide) node rendered
          exact leaves (tells_readKind (by decide) isBuffer operand.address.tells)
  | enum declared =>
      rw [readWithin, node] at rendered
      obtain ⟨suffix, isSuffix, rendered⟩ := bufferSuffix_eq_ok rendered
      cases rendered
      have isWord : Text.IsWord declared.name := words _ (by rw [node]; exact List.mem_cons_self)
      rw [flatCallees, isSuffix]
      have called := leaves (tells_readInto (isKind_bufferSuffix isSuffix) isBuffer isTemporary)
      exact (Emits.quiet_append (.line (tells_zero
        (.of_isRun (isRun_primitiveType declared.base)) isTemporary)) called).append_quiet
          (.line (tells_enumerator isTarget isWord.isRun isTemporary))
  | struct record =>
      rw [readWithin, node] at rendered
      cases rendered
      have isWord : Text.IsWord record.name := words _ (by rw [node]; exact List.mem_cons_self)
      exact leaves (tells_readBlock isWord isBuffer operand.address.tells)
  | union record =>
      rw [readWithin, node] at rendered
      cases rendered
      have isWord : Text.IsWord record.name := words _ (by rw [node]; exact List.mem_cons_self)
      have isCopying : Tame ("memcpy " ++ shown target) := by simp +decide [isShown]
      have fetched := @emits_fetch parcel _ _ _ (tells_fetchBytes isWord.isRun isCopy isBuffer)
      exact (fetched.append_quiet (quiet (tells_isNull (.of_isRun isCopy)))).append_quiet
        (emits_leaveIf named (tells_copyBytes isWord.isRun operand.address isCopy) isCopying)
  | array element => simp [TypeArena.element?, node] at flat
  | list element => simp [TypeArena.element?, node] at flat
  | interface declared =>
      rw [readWithin, node] at rendered
      cases rendered
      have isWord : Text.IsWord declared.name := words _ (by rw [node]; exact List.mem_cons_self)
      have isBinding : Tame ("bind " ++ shown target) := by simp +decide [isShown]
      have fetched := @emits_fetch parcel _ _ _ (tells_fetchRemote isRemote isBuffer)
      exact ((fetched.append_quiet (quiet (tells_isNull (.of_isRun isRemote)))).append_quiet
        (.line (tells_bind isParcel isTarget isWord.isRun isRemote (by simp)))).append_quiet
          (emits_leaveIf named (tells_isNull isTarget) isBinding)
  | map key mapped =>
      rw [readWithin, node] at rendered
      cases rendered
  | sequenceable declared =>
      rw [readWithin, node] at rendered
      cases rendered
  | queue element =>
      rw [readWithin, node] at rendered
      cases rendered

end Values

section Sequences

variable {types : TypeArena} {recovery : Recovery} {parcel : List Char} {buffer : String}

/-- What a value is written and read with. -/
def wireShape (types : TypeArena) (type : TypeId) : List WireCall :=
  match types.element? type with
  | none => WireCall.ofCallees (flatCallees (types.node type))
  | some element => ⟨.plain "Uint32".toList, 0⟩ ::
    (WireCall.ofCallees (flatCallees (types.node element))).map (WireCall.inside 1)

theorem element?_eq_some {type element : TypeId} :
    types.element? type = some element ↔
      types.node type = .array element ∨ types.node type = .list element := by
  rw [TypeArena.element?]
  cases types.node type <;> simp

theorem size_pos_of_element? {type element : TypeId} (isElement : types.element? type = some element) :
    0 < types.size := by
  by_contra empty
  have outside : types.nodes[type]? = none := by
    rw [Array.getElem?_eq_none]
    simp only [TypeArena.size] at empty
    omega
  simp [TypeArena.element?, TypeArena.node, outside] at isElement

theorem emits_elementLoop (depth : Nat) {length : String} {body : Code} {calls : List WireCall}
    (isLength : IsRun length) (emits : Emits none parcel body (Callee.on parcel buffer calls)) :
    Emits none parcel (elementLoop depth length body)
      (Callee.on parcel buffer (calls.map (WireCall.inside 1))) := by
  have isIndex := isRun_counter depth
  have told : Tells parcel
      s!"uint32_t {counter depth} = 0; {counter depth} < {length}; {counter depth}++" [] :=
    tells_iff.mpr (by simp +decide [toString, isIndex, isLength])
  have opens : Opens none parcel
      s!"for (uint32_t {counter depth} = 0; {counter depth} < {length}; {counter depth}++)" .loop [] :=
    .for (by simp [toString]) told
  have looped := Emits.braced opens emits
  rwa [Block.around, Callee.on_map] at looped

/-- There is no length beside an element, so it is no sequence. -/
theorem element?_eq_none_of_writeWithin {levels depth : Nat} {type : TypeId} {value : String}
    {code : Code}
    (rendered : writeWithin types recovery buffer (levels + 1) type value none depth = .ok code) :
    types.element? type = none := by
  cases isElement : types.element? type with
  | none => rfl
  | some element =>
      rw [writeWithin] at rendered
      rcases element?_eq_some.mp isElement with node | node <;> rw [node] at rendered <;> cases rendered

theorem element?_eq_none_of_readWithin {levels depth : Nat} {type : TypeId} {target : String}
    {code : Code}
    (rendered : readWithin types recovery buffer (levels + 1) type target none depth = .ok code) :
    types.element? type = none := by
  cases isElement : types.element? type with
  | none => rfl
  | some element =>
      rw [readWithin] at rendered
      rcases element?_eq_some.mp isElement with node | node <;> rw [node] at rendered <;> cases rendered

theorem tells_count {count : String} (isCount : IsRun count) (isBuffer : IsRun buffer) :
    Tells parcel s!"!HdfSbufWriteUint32({buffer}, {count})"
      (Callee.on parcel buffer [.plain "Uint32".toList]) :=
  tells_write (by decide) isBuffer (IsPhrase.of_isRun isCount).tells
    (by simp [toString, Callee.onBuffer, Callee.writing])

theorem emits_write {type : TypeId} {value : String} {length : Option String} {code : Code}
    (spelled : types.Spelled) (named : recovery.Named) (isBuffer : IsRun buffer)
    (operand : Operand value) (isRun : IsRun value) (isLength : ∀ text ∈ length, IsRun text)
    (rendered : write types recovery buffer type value length = .ok code) :
    Emits none parcel code (Callee.on parcel buffer (wireShape types type)) := by
  rw [write] at rendered
  cases isElement : types.element? type with
  | none =>
      simp only [wireShape, isElement]
      exact emits_writeWithin_flat spelled named isBuffer operand isElement rendered
  | some element =>
      have tame : Tame ("write " ++ shown value ++ " size") := by simp +decide [operand.tame_shown]
      obtain ⟨levels, size⟩ := Nat.exists_eq_succ_of_ne_zero (size_pos_of_element? isElement).ne'
      have inner : ∃ count body, count ∈ length ∧
          writeWithin types recovery buffer (levels + 1) element (elementOf 0 value) none 1 = .ok body ∧
          code = leaveIf recovery s!"!HdfSbufWriteUint32({buffer}, {count})"
            ("write " ++ shown value ++ " size") ++ elementLoop 0 count body := by
        rw [size, writeWithin] at rendered
        cases length with
        | none =>
            rcases element?_eq_some.mp isElement with node | node <;> rw [node] at rendered <;>
              cases rendered
        | some count =>
            rcases element?_eq_some.mp isElement with node | node
            all_goals
              rw [node] at rendered
              obtain ⟨_, isCount, rendered⟩ := Emit.bind_eq_ok.mp rendered
              cases isCount
              obtain ⟨body, isBody, rendered⟩ := Emit.bind_eq_ok.mp rendered
              cases rendered
              exact ⟨count, body, rfl, isBody, rfl⟩
      obtain ⟨count, body, isCount, isBody, rfl⟩ := inner
      have counted := @emits_check recovery parcel buffer _ _ _ named tame
        (tells_count (isLength count isCount) isBuffer)
      have elements := @emits_writeWithin_flat types recovery parcel buffer _ _ _ _ _ _ spelled named
        isBuffer (.element isRun 0) (element?_eq_none_of_writeWithin isBody) isBody
      simp only [wireShape, isElement]
      have both := counted.append (emits_elementLoop 0 (isLength count isCount) elements)
      rwa [← Callee.on_append] at both

/-- The spelling of a type calls nothing. -/
theorem isPhrase_typeWithin (spelled : types.Spelled) {levels : Nat} {type : TypeId} {text : String}
    (rendered : typeWithin types (levels + 1) type = .ok text) : IsPhrase text := by
  have words : ∀ name ∈ (types.node type).names, Text.IsWord name := spelled type
  have named : ∀ {word name text : String}, IsRun word → name ∈ (types.node type).names →
      word ++ " " ++ name = text → IsPhrase text := by
    rintro word name text isRun listed rfl
    exact .behind isRun (.of_isRun (words name listed).isRun)
  have pointed : ∀ element, (typeWithin types levels element >>= fun inner =>
      (pure (inner ++ "*") : Emit String)) = .ok text → IsPhrase text := by
    intro element spelling
    obtain ⟨inner, isInner, spelling⟩ := Emit.bind_eq_ok.mp spelling
    cases spelling
    cases levels with
    | zero =>
        cases isInner
        exact .of_isRun (by decide)
    | succ levels => exact (isPhrase_typeWithin spelled isInner).append (by decide)
  rw [typeWithin] at rendered
  cases node : types.node type with
  | primitive primitive =>
      rw [node] at rendered
      cases rendered
      exact .of_isRun (isRun_primitiveType primitive)
  | enum declared =>
      rw [node] at rendered
      cases rendered
      exact named (by decide : IsRun "enum") (by rw [node]; exact List.mem_cons_self) (by simp)
  | struct record =>
      rw [node] at rendered
      cases rendered
      exact named (by decide : IsRun "struct") (by rw [node]; exact List.mem_cons_self) (by simp)
  | union record =>
      rw [node] at rendered
      cases rendered
      exact named (by decide : IsRun "union") (by rw [node]; exact List.mem_cons_self) (by simp)
  | array element =>
      rw [node] at rendered
      exact pointed element rendered
  | list element =>
      rw [node] at rendered
      exact pointed element rendered
  | interface declared =>
      rw [node] at rendered
      cases rendered
      exact (named (by decide : IsRun "struct") (by rw [node]; exact List.mem_cons_self)
        (by simp)).append (by decide)
  | _ =>
      rw [node] at rendered
      cases rendered

theorem isPhrase_typeName (spelled : types.Spelled) {type : TypeId} {text : String}
    (rendered : typeName types type = .ok text) : IsPhrase text :=
  isPhrase_typeWithin spelled rendered

theorem tells_allocate {target type count : String} (isTarget : IsRun target)
    (isType : IsPhrase type) (isCount : IsRun count) :
    Tells parcel s!"{target} = ({type}*)OsalMemCalloc(sizeof({type}) * ({count}));" [] := by
  have tail : Tells parcel s!"OsalMemCalloc(sizeof({type}) * ({count}));" [] := by
    obtain ⟨front, last, undotted, calm, quiet, lexed⟩ := isType
    exact tells_iff.mpr (by simpa +decide [toString, isCount, lexed, undotted, quiet] using calm)
  have head : Tells parcel s!"{target} = ({type}*" [] := by
    obtain ⟨front, last, undotted, calm, quiet, lexed⟩ := isType
    exact tells_iff.mpr (by simpa +decide [toString, isTarget, lexed, undotted, quiet] using calm)
  exact .join ')' head tail (by simp [toString]) rfl

theorem tells_positive {count : String} (isCount : IsRun count) :
    Tells parcel s!"{count} > 0" [] := by
  exact tells_iff.mpr (by simp +decide [toString, isCount])

theorem tells_readCount {address : String} (isAddress : IsPhrase address) (isBuffer : IsRun buffer) :
    Tells parcel s!"!HdfSbufReadUint32({buffer}, {address})"
      (Callee.on parcel buffer [.plain "Uint32".toList]) :=
  tells_read (by decide) isBuffer isAddress.tells
    (by simp [toString, Callee.onBuffer, Callee.reading])

/-- Storage for elements is allocated if there are any, before they are read. -/
theorem emits_allocate {target type count : String} {body : Code} {calls : List WireCall}
    (named : recovery.Named) (isTarget : IsRun target) (tame : Tame (shown target))
    (isType : IsPhrase type) (isCount : IsRun count) (emits : Emits none parcel body calls) :
    Emits none parcel (Code.braced s!"if ({count} > 0)"
      (Code.line s!"{target} = ({type}*)OsalMemCalloc(sizeof({type}) * ({count}));" ++
        leaveIfWith recovery s!"{target} == NULL" ("malloc " ++ shown target)
          "HDF_ERR_MALLOC_FAIL" ++ body)) calls := by
  have isMessage : Tame ("malloc " ++ shown target) := by simp +decide [tame]
  have allocated : Emits none parcel
      (Code.line s!"{target} = ({type}*)OsalMemCalloc(sizeof({type}) * ({count}));") [] :=
    .line (tells_allocate isTarget isType isCount)
  have checked := @emits_leaveIfWith parcel recovery _ _ _ _ named (tells_isNull (.of_isRun isTarget))
    isMessage (by decide : IsRun "HDF_ERR_MALLOC_FAIL")
  have inside := (allocated.append_quiet checked).quiet_append emits
  exact .braced (.if_spelled (tells_positive isCount) (not_skips_none _) (by simp [toString])) inside

theorem emits_read {type : TypeId} {target : String} {length : Option String} {code : Code}
    (spelled : types.Spelled) (named : recovery.Named) (isParcel : Callee.IsParcel parcel)
    (isBuffer : IsRun buffer) (operand : Operand target) (isRun : IsRun target)
    (isLength : ∀ text ∈ length, IsRun text ∧ Operand text)
    (rendered : read types recovery buffer type target length = .ok code) :
    Emits none parcel code (Callee.on parcel buffer (wireShape types type)) := by
  rw [read] at rendered
  cases isElement : types.element? type with
  | none =>
      simp only [wireShape, isElement]
      exact emits_readWithin_flat spelled named isParcel isBuffer operand isElement rendered
  | some element =>
      have isShown := operand.tame_shown
      have isSize : Tame ("read " ++ shown target ++ " size") := by simp +decide [isShown]
      have isCheck : Tame ("check " ++ shown target ++ " size") := by simp +decide [isShown]
      obtain ⟨levels, size⟩ := Nat.exists_eq_succ_of_ne_zero (size_pos_of_element? isElement).ne'
      have inner : ∃ count elementType body, count ∈ length ∧
          typeName types element = .ok elementType ∧
          readWithin types recovery buffer (levels + 1) element (elementOf 0 target) none 1 = .ok body ∧
          code = leaveIf recovery s!"!HdfSbufReadUint32({buffer}, {addressOf count})"
              ("read " ++ shown target ++ " size") ++
            leaveIf recovery s!"{count} > HDI_BUFF_MAX_SIZE / sizeof({elementType})"
              ("check " ++ shown target ++ " size") ++
            Code.braced s!"if ({count} > 0)"
              (Code.line
                s!"{target} = ({elementType}*)OsalMemCalloc(sizeof({elementType}) * ({count}));" ++
              leaveIfWith recovery s!"{target} == NULL" ("malloc " ++ shown target)
                "HDF_ERR_MALLOC_FAIL" ++
              elementLoop 0 count body) := by
        rw [size, readWithin] at rendered
        cases length with
        | none =>
            rcases element?_eq_some.mp isElement with node | node <;> rw [node] at rendered <;>
              cases rendered
        | some count =>
            rcases element?_eq_some.mp isElement with node | node
            all_goals
              rw [node] at rendered
              obtain ⟨_, isCount, rendered⟩ := Emit.bind_eq_ok.mp rendered
              cases isCount
              obtain ⟨elementType, isType, rendered⟩ := Emit.bind_eq_ok.mp rendered
              obtain ⟨body, isBody, rendered⟩ := Emit.bind_eq_ok.mp rendered
              cases rendered
              exact ⟨count, elementType, body, rfl, isType, isBody, rfl⟩
      obtain ⟨count, elementType, body, isCount, typed, isBody, rfl⟩ := inner
      obtain ⟨countRun, countOperand⟩ := isLength count isCount
      have isType := isPhrase_typeName spelled typed
      have counted := @emits_check recovery parcel buffer _ _ _ named isSize
        (tells_readCount countOperand.address isBuffer)
      have checked := @emits_leaveIf parcel recovery _ _ _ named (tells_exceeds countRun isType) isCheck
      have elements := @emits_readWithin_flat types recovery parcel buffer _ _ _ _ _ _ spelled named
        isParcel isBuffer (.element isRun 0) (element?_eq_none_of_readWithin isBody) isBody
      have looped := emits_allocate named isRun isShown isType countRun
        (emits_elementLoop 0 countRun elements)
      simp only [wireShape, isElement]
      have all := (counted.append_quiet checked).append looped
      rwa [← Callee.on_append] at all

end Sequences

end CCode

end DriverIdl
