import DriverIdl.Emit.Marshalling.Cpp
import DriverIdl.Proofs.Emit.Phrases

/-!
# What C++ statements call

Writing a value and reading it back call the same functions of the parcel, those of elements inside of
one more loop.  Values are named by words, members of the struct at hand, or parts of the entry of a map
that a loop is at.
-/

namespace DriverIdl

open CodeLexeme

namespace CppCode

section Spellings

variable {context : EmitContext}

theorem onlyWord_namespaceSegment {segment : String} (isWord : Text.OnlyWord segment.toList) :
    Text.OnlyWord (namespaceSegment segment).toList := by
  unfold namespaceSegment
  split
  · exact List.all_eq_true.mp rfl
  · split
    · exact List.all_eq_true.mp rfl
    · split
      · exact Text.onlyWord_uppercase isWord
      · exact Text.onlyWord_pascalCase isWord

/-- Names may be qualified. -/
theorem isName_declaredName (spelled : context.program.Spelled) {name : String}
    (isWord : Text.IsWord name) (namespaceId : NamespaceId) :
    Callee.IsName (declaredName context namespaceId name).toList := by
  rw [declaredName]
  split
  · exact isWord.isName
  · have separator : Callee.IsName [':', ':'] := List.all_eq_true.mp rfl
    have segments : Callee.IsName (qualifiedNamespace context namespaceId).toList := by
      intro character inside
      rcases mem_of_mem_intercalate inside with between | ⟨segment, listed, within⟩
      · exact separator character between
      · obtain ⟨word, isSegment, rfl⟩ := List.mem_map.mp listed
        have onlyWord := onlyWord_namespaceSegment (spelled.namespaces.onlyWord isSegment)
        rw [onlyWord character within, Bool.true_or]
    rw [String.toList_append, String.toList_append]
    exact (segments.append separator).append isWord.isName

theorem declaredName_getLast? {namespaceId : NamespaceId} {name : String} (isWord : Text.IsWord name) :
    (declaredName context namespaceId name).toList.getLast? = name.toList.getLast? := by
  rw [declaredName]
  split
  · rfl
  · rw [String.toList_append, List.getLast?_append_of_ne_nil _ isWord.1]

/-- What the types of a program are called in C++ is made of names. -/
theorem isRun_declaredName (spelled : context.program.Spelled) {name : String}
    (isWord : Text.IsWord name) (namespaceId : NamespaceId) :
    IsRun (declaredName context namespaceId name) := by
  refine ⟨?_, List.all_eq_true.mpr fun character inside => ?_⟩
  · intro empty
    have ends := @declaredName_getLast? context namespaceId name isWord
    rw [empty, List.getLast?_nil, eq_comm, List.getLast?_eq_none_iff] at ends
    exact isWord.1 ends
  · have isName := isName_declaredName spelled isWord namespaceId character inside
    rw [Bool.or_eq_true] at isName
    rcases isName with word | colon
    · exact joins_of_isWordChar word
    · rw [eq_of_beq colon]
      rfl

theorem isRun_primitiveType (primitive : Primitive) : IsRun (primitiveType primitive) := by
  cases primitive <;> decide

/-- The spelling of a type has commas and blanks between the parts of a map only. -/
theorem spaces_typeWithin (spelled : context.program.Spelled) (levels : Nat) (type : TypeId) :
    (typeWithin context levels type).toList.all spaces = true := by
  induction levels generalizing type with
  | zero => rfl
  | succ levels ih =>
      have declared : ∀ (namespaceId : NamespaceId) (name : String),
          name ∈ (context.types.node type).names →
          (declaredName context namespaceId name).toList.all spaces = true :=
        fun namespaceId name listed =>
          (isRun_declaredName spelled (spelled.types type name listed) namespaceId).spaces
      rw [typeWithin]
      cases node : context.types.node type with
      | primitive primitive => exact (isRun_primitiveType primitive).spaces
      | enum => exact declared _ _ (by rw [node]; exact List.mem_cons_self)
      | struct => exact declared _ _ (by rw [node]; exact List.mem_cons_self)
      | union => exact declared _ _ (by rw [node]; exact List.mem_cons_self)
      | array element => simp +decide [toString, ih element]
      | list element => simp +decide [toString, ih element]
      | map key value => simp +decide [toString, ih key, ih value]
      | interface =>
          simp +decide [toString, declared _ _ (by rw [node]; exact List.mem_cons_self)]
      | sequenceable =>
          simp +decide [toString, declared _ _ (by rw [node]; exact List.mem_cons_self)]
      | queue element => simp +decide [toString, ih element]

theorem isPhrase_typeName (spelled : context.program.Spelled) (type : TypeId) :
    IsPhrase (typeName context type) := by
  refine .of_spaces (spaces_typeWithin spelled _ type) ?_
  have declared : ∀ (namespaceId : NamespaceId) (name : String),
      name ∈ (context.types.node type).names →
      ∃ last ∈ (declaredName context namespaceId name).toList.getLast?, joins last = true :=
    fun namespaceId name listed =>
      (isRun_declaredName spelled (spelled.types type name listed) namespaceId).ends
  rw [typeName, typeWithin]
  cases node : context.types.node type with
  | primitive primitive => exact (isRun_primitiveType primitive).ends
  | enum => exact declared _ _ (by rw [node]; exact List.mem_cons_self)
  | struct => exact declared _ _ (by rw [node]; exact List.mem_cons_self)
  | union => exact declared _ _ (by rw [node]; exact List.mem_cons_self)
  | _ => exact ⟨'>', by simp [toString, List.getLast?_cons, List.getLast?_append], rfl⟩

end Spellings

section Operands

variable {parcel : List Char} {text : String}

/-- The name of a variable that ends with the depth of its block. -/
structure IsNumbered (name : String) : Prop where
  isWord : Text.IsWord name
  ends : ∃ last ∈ name.toList.getLast?, last.isDigit = true

theorem isNumbered_append {stem : String} (isWord : Text.OnlyWord stem.toList) (depth : Nat) :
    IsNumbered (stem ++ toString depth) := by
  have digits : (toString depth).toList = Nat.toDigits 10 depth := by
    rw [Nat.toString_eq_ofList_toDigits, String.toList_ofList]
  have nonempty : Nat.toDigits 10 depth ≠ [] := Nat.toDigits_ne_nil
  have isDigit : ∀ character ∈ Nat.toDigits 10 depth, character.isDigit = true :=
    fun character inside => Nat.isDigit_of_mem_toDigits (by decide) (by decide) inside
  rw [← digits] at nonempty isDigit
  refine ⟨⟨?_, ?_⟩, ?_⟩
  · rw [String.toList_append]
    exact List.append_ne_nil_of_right_ne_nil _ nonempty
  · rw [String.toList_append]
    refine isWord.append fun character inside => ?_
    simp [isWordChar, Char.isAlphanum, isDigit character inside]
  · rw [String.toList_append, List.getLast?_append_of_ne_nil _ nonempty]
    exact ⟨_, List.getLast?_eq_some_getLast nonempty, isDigit _ (List.getLast_mem nonempty)⟩

theorem IsNumbered.isRun {name : String} (isNumbered : IsNumbered name) : IsRun name :=
  isNumbered.isWord.isRun

theorem IsNumbered.ne_parcel {name : String} (isNumbered : IsNumbered name)
    (isParcel : Callee.IsParcel parcel) : name.toList ≠ parcel := by
  obtain ⟨last, ends, isDigit⟩ := isNumbered.ends
  refine isParcel.ne_of_getLast? ends ⟨?_, ?_⟩ <;>
  · rintro rfl
    exact absurd isDigit (by decide)

/-- What stands for a value: a word, a member of the struct at hand, or a part of an entry of a map. -/
inductive Operand : String → Prop where
  | word {name : String} (isWord : Text.IsWord name) : Operand name
  | member {name : String} (isWord : Text.IsWord name) : Operand s!"dataBlock.{name}"
  | key {item : String} (isItem : IsNumbered item) : Operand s!"({item}.first)"
  | mapped {item : String} (isItem : IsNumbered item) : Operand s!"({item}.second)"

/-- What stands behind a value: nothing, a name of a method that is none of a parcel, or characters
that go on with its last run. -/
def isSilent : List Char → Bool
  | '.' :: method => method.all joins && (Callee.ofMethod? method).isNone
  | other => other.all joins

theorem isSilent_iff {suffix : List Char} :
    isSilent suffix = true ↔ suffix.all joins = true ∨
      ∃ method, suffix = '.' :: method ∧ method.all joins = true ∧
        Callee.ofMethod? method = none := by
  unfold isSilent
  split
  · rename_i method
    simp [joins]
  · rename_i other
    simp only [iff_self_or]
    rintro ⟨method, rfl, -⟩
    exact absurd rfl (other method)

theorem unbroken_of_isSilent {suffix : List Char} (silent : isSilent suffix = true) :
    ∀ character ∈ suffix, ¬separates character := by
  have joined : ∀ {run : List Char}, run.all joins = true → ∀ character ∈ run,
      ¬separates character := by
    intro run all character inside
    have isJoin := List.all_eq_true.mp all character inside
    simp only [joins, Bool.and_eq_true, Bool.not_eq_true'] at isJoin
    simp [isJoin.1]
  rcases isSilent_iff.mp silent with all | ⟨method, rfl, all, -⟩
  · exact joined all
  · intro character inside
    rcases List.mem_cons.mp inside with rfl | inside
    · decide
    · exact joined all character inside

/-- A dotted run calls a method of what stands in front of its first dot. -/
theorem tells_member {object behind : List Char} {rest : String} (undotted : '.' ∉ object)
    (unbroken : ∀ character ∈ object ++ '.' :: behind, ¬separates character)
    (other : object ≠ parcel ∨ Callee.ofMethod? behind = none) (told : Tells parcel rest [])
    (apart : ∀ first ∈ rest.toList.head?, separates first = true)
    (spelled : text.toList = object ++ '.' :: (behind ++ rest.toList)) : Tells parcel text [] := by
  have lexed : lexFrom false text.toList =
      .run (object ++ '.' :: behind) :: lexFrom false rest.toList := by
    have same : text.toList = (object ++ '.' :: behind) ++ rest.toList := by simp [spelled]
    rw [same, lexFrom_append_of_unbroken (by simp) unbroken]
    cases isRest : rest.toList with
    | nil => rfl
    | cons first others =>
        rw [isRest] at apart
        rw [lexFrom_of_separates (apart first rfl), extend_sign]
  refine tells_iff.mpr ?_
  rw [lexed, Callee.inRow_method undotted, told.callees_eq, List.append_nil, List.all_cons, told.calm]
  refine ⟨rfl, ?_⟩
  rcases other with differs | none
  · rw [if_neg differs]
  · rw [none]
    split <;> rfl

theorem tells_silent {suffix : List Char} (silent : isSilent suffix = true)
    (spelled : text.toList = suffix) : Tells parcel text [] := by
  rcases isSilent_iff.mp silent with joined | ⟨method, rfl, -, none⟩
  · by_cases empty : suffix = []
    · rw [String.toList_injective (spelled.trans empty : text.toList = "".toList)]
      exact tells_empty
    · exact (IsPhrase.of_isRun ⟨spelled ▸ empty, spelled ▸ joined⟩).tells
  · exact @tells_member parcel text [] method "" (by simp) (unbroken_of_isSilent silent) (.inr none)
      tells_empty (by simp) (by simp [spelled])

namespace IsNumbered

variable {item : String}

/-- The entry of a map has two parts. -/
theorem tells_part {part : String} (isItem : IsNumbered item) (isParcel : Callee.IsParcel parcel)
    (isPart : IsRun part) : Tells parcel (item ++ "." ++ part) [] := by
  refine @tells_member parcel _ item.toList part.toList "" isItem.isRun.undotted ?_
    (.inl (isItem.ne_parcel isParcel)) tells_empty (by simp) (by simp)
  intro character inside
  rcases List.mem_append.mp inside with early | late
  · exact isItem.isRun.unbroken character early
  · rcases List.mem_cons.mp late with rfl | later
    · decide
    · exact isPart.unbroken character later

end IsNumbered

namespace Operand

variable {value : String}

/-- A value calls no function of a parcel, also not in front of what goes on with it. -/
theorem tells (operand : Operand value) (isParcel : Callee.IsParcel parcel) {suffix : List Char}
    (silent : isSilent suffix = true) (spelled : text.toList = value.toList ++ suffix) :
    Tells parcel text [] := by
  have unbroken := unbroken_of_isSilent silent
  have behind : Tells parcel (String.ofList suffix) [] := tells_silent silent String.toList_ofList
  have grouped : ∀ {item part : String}, IsNumbered item → IsRun part →
      text.toList = '(' :: (item ++ "." ++ part).toList ++ ')' :: suffix → Tells parcel text [] :=
    fun isItem isPart same =>
      .grouped (isItem.tells_part isParcel isPart) behind (by simpa using same)
  cases operand with
  | word isWord =>
      rcases isSilent_iff.mp silent with joined | ⟨method, rfl, -, none⟩
      · have isRun : IsRun text := by
          refine ⟨by rw [spelled]; exact List.append_ne_nil_of_left_ne_nil isWord.1 _, ?_⟩
          rw [spelled, List.all_append, isWord.isRun.2, joined, Bool.and_self]
        exact (IsPhrase.of_isRun isRun).tells
      · exact tells_member isWord.isRun.undotted
          (fun character inside => (List.mem_append.mp inside).elim
            (isWord.isRun.unbroken character) (unbroken character)) (.inr none) tells_empty (by simp)
          (by simp [spelled])
  | @member name isWord =>
      refine @tells_member parcel text "dataBlock".toList (name.toList ++ suffix) "" (by decide) ?_
        (.inl (isParcel.ne_of_getLast? rfl (by decide))) tells_empty (by simp)
        (by simp [spelled, toString])
      intro character inside
      have front : ∀ character ∈ "dataBlock.".toList, ¬separates character :=
        unbroken_of_all rfl
      have same : "dataBlock".toList ++ '.' :: (name.toList ++ suffix) =
          "dataBlock.".toList ++ (name.toList ++ suffix) := rfl
      rw [same] at inside
      rcases List.mem_append.mp inside with early | late
      · exact front character early
      · exact (List.mem_append.mp late).elim (isWord.isRun.unbroken character) (unbroken character)
  | key isItem => exact grouped isItem (by decide : IsRun "first") (by simp [spelled, toString])
  | mapped isItem => exact grouped isItem (by decide : IsRun "second") (by simp [spelled, toString])

theorem tells_self (operand : Operand value) (isParcel : Callee.IsParcel parcel) :
    Tells parcel value [] :=
  @tells parcel value value operand isParcel [] rfl (by simp)

theorem address (operand : Operand value) (isParcel : Callee.IsParcel parcel) :
    Tells parcel ("&" ++ value) [] := by
  have grouped : ∀ {item part text : String}, IsNumbered item → IsRun part →
      text.toList = '&' :: '(' :: ((item ++ "." ++ part).toList ++ [')']) → Tells parcel text [] := by
    intro item part text isItem isPart spelled
    have closed : Tells parcel (item ++ "." ++ part ++ ")") [] :=
      .join ')' (isItem.tells_part isParcel isPart) tells_empty (by simp) rfl
    exact .idle (by decide : IsRun "&") (by decide) closed (by simp [spelled])
  cases operand with
  | word isWord => exact (IsPhrase.of_isRun (.append (by decide) isWord.isRun)).tells
  | @member name isWord =>
      have front : ∀ character ∈ "&dataBlock.".toList, ¬separates character :=
        unbroken_of_all rfl
      refine @tells_member parcel _ "&dataBlock".toList name.toList "" (by decide) ?_
        (.inl (isParcel.ne_of_getLast? rfl (by decide))) tells_empty (by simp) (by simp [toString])
      intro character inside
      have same : "&dataBlock".toList ++ '.' :: name.toList = "&dataBlock.".toList ++ name.toList :=
        rfl
      rw [same] at inside
      exact (List.mem_append.mp inside).elim (front character) (isWord.isRun.unbroken character)
  | key isItem => exact grouped isItem (by decide : IsRun "first") (by simp [toString])
  | mapped isItem => exact grouped isItem (by decide : IsRun "second") (by simp [toString])

/-- A value is no variable of its own in a condition that goes on behind it. -/
theorem not_skips {skip : Option (List Char)} {condition : String} {suffix : List Char} {sign : Char}
    {rest : List Char} (operand : Operand value) (silent : isSilent suffix = true)
    (spelled : condition.toList = value.toList ++ (suffix ++ sign :: rest))
    (isSign : leadsOn sign = true) : ¬Skips skip condition := by
  have unbroken := unbroken_of_isSilent silent
  cases operand with
  | word isWord =>
      exact @not_skips_of_run skip condition (value.toList ++ suffix) sign rest
        (List.append_ne_nil_of_left_ne_nil isWord.1 _)
        (fun character inside => (List.mem_append.mp inside).elim
          (isWord.isRun.unbroken character) (unbroken character)) (by simp [spelled]) isSign
  | @member name isWord =>
      have front : ∀ character ∈ "dataBlock.".toList, ¬separates character :=
        unbroken_of_all rfl
      refine @not_skips_of_run skip condition ("dataBlock.".toList ++ (name.toList ++ suffix)) sign
        rest (by simp) ?_ (by simp [spelled, toString]) isSign
      intro character inside
      rcases List.mem_append.mp inside with early | late
      · exact front character early
      · exact (List.mem_append.mp late).elim (isWord.isRun.unbroken character) (unbroken character)
  | key _ => exact not_skips_of_sign (rfl : separates '(' = true) (by simp [spelled, toString])
  | mapped _ => exact not_skips_of_sign (rfl : separates '(' = true) (by simp [spelled, toString])

theorem not_skips_of_blank {skip : Option (List Char)} {condition : String}
    (operand : Operand value) (starts : value.toList ++ [' '] <+: condition.toList) :
    ¬Skips skip condition := by
  obtain ⟨rest, spelled⟩ := starts
  exact @not_skips value skip condition [] ' ' rest operand rfl (by simp [← spelled]) rfl

end Operand

theorem mem_of_mem_replaceFrom {pattern replacement : List Char} {skip : Nat} {text : List Char}
    {character : Char} (inside : character ∈ Text.replaceFrom pattern replacement skip text) :
    character ∈ replacement ∨ character ∈ text := by
  induction text generalizing skip with
  | nil => simp [Text.replaceFrom] at inside
  | cons first rest ih =>
      have later {skip : Nat} (within : character ∈ Text.replaceFrom pattern replacement skip rest) :
          character ∈ replacement ∨ character ∈ first :: rest :=
        (ih within).imp_right (List.mem_cons_of_mem _)
      cases skip with
      | succ skip => exact later inside
      | zero =>
          rw [Text.replaceFrom] at inside
          split at inside
          · exact (List.mem_append.mp inside).elim .inl later
          · rcases List.mem_cons.mp inside with rfl | within
            · exact .inr List.mem_cons_self
            · exact later within

theorem tame_replaceAll {pattern replacement text : String} (isReplacement : Tame replacement)
    (tame : Tame text) : Tame (Text.replaceAll pattern replacement text) := by
  apply List.all_eq_true.mpr
  intro character inside
  rw [Text.replaceAll, String.toList_ofList] at inside
  rcases mem_of_mem_replaceFrom inside with replaced | kept
  · exact List.all_eq_true.mp isReplacement character replaced
  · exact List.all_eq_true.mp tame character kept

theorem Operand.tame_shown {value : String} (operand : Operand value)
    (isParcel : Callee.IsParcel parcel) : Tame (shown value) :=
  tame_replaceAll (by decide) (tame_replaceAll (by decide) (operand.tells_self isParcel).tame)

end Operands

section Kinds

/-- What the names of the parcel functions for a primitive type end with. -/
def wireKind? : Primitive → Option String
  | .string => some "CString"
  | .fileDescriptor => some "FileDescriptor"
  | primitive => parcelSuffix? primitive

/-- A parcel has functions of these names that write and read, without template arguments. -/
def IsKind (kind : String) : Prop := IsRun kind ∧ '<' ∉ kind.toList

instance (kind : String) : Decidable (IsKind kind) := inferInstanceAs (Decidable (_ ∧ _))

theorem isKind_wireKind {primitive : Primitive} {kind : String}
    (isKind : wireKind? primitive = some kind) : IsKind kind := by
  cases primitive <;> cases isKind <;> decide

theorem isKind_parcelSuffix {primitive : Primitive} {kind : String}
    (isKind : parcelSuffix? primitive = some kind) : IsKind kind := by
  cases primitive <;> cases isKind <;> decide

theorem IsKind.takeWhile {kind : String} (isKind : IsKind kind) :
    kind.toList.takeWhile (· != '<') = kind.toList := by
  have apart : ∀ character ∈ kind.toList, (character != '<') = true := fun character inside =>
    bne_iff_ne.mpr fun same => isKind.2 (same ▸ inside)
  simpa using @List.takeWhile_append_of_pos _ _ kind.toList [] apart

end Kinds

section Statements

variable {skip : Option (List Char)} {parcel : List Char} {buffer leave : String}

theorem emits_leaveIf {failed what : String} {callees : List Callee} (leaves : Tells parcel leave [])
    (tame : Tame what) (unskipped : ¬Skips skip failed) (told : Tells parcel failed callees) :
    Emits skip parcel (leaveIf leave failed what) (WireCall.ofCallees callees) :=
  .refusal told unskipped (by simp +decide [toString, tame]) (by simpa using leaves)

/-- A call that must succeed. -/
theorem emits_check {failed what : String} {callees : List Callee} (leaves : Tells parcel leave [])
    (tame : Tame what) (told : Tells parcel failed (Callee.on parcel buffer callees))
    (negated : failed.toList.head? = some '!') :
    Emits skip parcel (leaveIf leave failed what)
      (Callee.on parcel buffer (WireCall.ofCallees callees)) := by
  have emits := @emits_leaveIf skip parcel leave _ _ _ leaves tame (not_skips_of_sign rfl negated) told
  rwa [WireCall.ofCallees, Callee.on_map] at emits

/-- Whether a method of a parcel succeeds. -/
theorem tells_checked {text method arguments : String} {callee : Callee} (isRun : IsRun method)
    (isMethod : Callee.ofMethod? method.toList = some callee) (isBuffer : IsRun buffer)
    (told : Tells parcel arguments [])
    (spelled : text.toList = '!' :: (buffer.toList ++ '.' :: (method.toList ++ '(' ::
      (arguments.toList ++ [')'])))) : Tells parcel text (Callee.on parcel buffer [callee]) := by
  have closed : Tells parcel (arguments ++ ")") [] := .join ')' told tells_empty (by simp) rfl
  have called : Tells parcel (buffer ++ "." ++ method ++ "(" ++ (arguments ++ ")")) _ :=
    .method isBuffer isRun closed (by simp)
  rw [isMethod] at called
  exact .join '!' tells_empty called (by simp [spelled]) rfl

/-- A method of a parcel that writes. -/
theorem tells_write {text kind arguments : String} (isKind : IsKind kind) (isBuffer : IsRun buffer)
    (told : Tells parcel arguments [])
    (spelled : text.toList = '!' :: (buffer.toList ++ '.' :: (Callee.writing ++ (kind.toList ++
      '(' :: (arguments.toList ++ [')']))))) :
    Tells parcel text (Callee.on parcel buffer [.plain kind.toList]) := by
  have name : ("Write" ++ kind).toList = Callee.writing ++ kind.toList := String.toList_append
  have isMethod := Callee.ofMethod?_writing kind.toList
  rw [isKind.takeWhile, ← name] at isMethod
  exact tells_checked (.append (by decide) isKind.1) isMethod isBuffer told (by simp [spelled, name])

theorem tells_writeKind {kind arguments : String} (isKind : IsKind kind) (isBuffer : IsRun buffer)
    (told : Tells parcel arguments []) :
    Tells parcel s!"!{buffer}.Write{kind}({arguments})"
      (Callee.on parcel buffer [.plain kind.toList]) :=
  tells_write isKind isBuffer told (by simp [toString, Callee.writing])

theorem tells_text {value : String} (operand : Operand value) (isParcel : Callee.IsParcel parcel) :
    Tells parcel (value ++ ".c_str()") [] := by
  have text : Tells parcel (value ++ ".c_str") [] :=
    operand.tells isParcel (by decide : isSilent ".c_str".toList = true) (by simp)
  exact .nullary text tells_empty (by simp)

theorem tells_writeSize {value : String} (operand : Operand value)
    (isParcel : Callee.IsParcel parcel) (isBuffer : IsRun buffer) :
    Tells parcel s!"!{buffer}.WriteUint32({value}.size())"
      (Callee.on parcel buffer [.plain "Uint32".toList]) := by
  have text : Tells parcel (value ++ ".size") [] :=
    operand.tells isParcel (by decide : isSilent ".size".toList = true) (by simp)
  have called : Tells parcel (value ++ ".size()") [] := .nullary text tells_empty (by simp)
  exact tells_write (by decide) isBuffer called (by simp [toString, Callee.writing])

theorem tells_cast {type value : String} (isType : IsRun type) (told : Tells parcel value []) :
    Tells parcel s!"static_cast<{type}>({value})" [] := by
  have isRun : IsRun ("static_cast<" ++ type ++ ">") :=
    .append (.append (by decide) isType) (by decide)
  have idle : Callee.ofFunction? ("static_cast<" ++ type ++ ">").toList = none :=
    Callee.ofFunction?_template (by simp [List.getLast?_cons, List.getLast?_append])
  have closed : Tells parcel (value ++ ")") [] := .join ')' told tells_empty (by simp) rfl
  exact .idle isRun idle closed (by simp [toString])

theorem tells_sizeof {name : String} (isName : IsRun name) : Tells parcel s!" sizeof({name})" [] :=
  tells_iff.mpr (by simp +decide [toString, isName])

theorem tells_writeBytes {value name : String} (operand : Operand value)
    (isParcel : Callee.IsParcel parcel) (isBuffer : IsRun buffer) (isName : IsRun name) :
    Tells parcel s!"!{buffer}.WriteUnpadBuffer((const void*)&{value}, sizeof({name}))"
      (Callee.on parcel buffer [.plain "UnpadBuffer".toList]) := by
  have pointer : Tells parcel "const void*" [] := tells_iff.mpr (by simp +decide)
  have behind : Tells parcel ("&" ++ value ++ ", sizeof(" ++ name ++ ")") [] :=
    .join ',' (operand.address isParcel) (tells_sizeof isName) (by simp [toString]) rfl
  have arguments : Tells parcel ("(const void*)&" ++ value ++ ", sizeof(" ++ name ++ ")") [] :=
    .grouped pointer behind (by simp)
  exact tells_write (by decide) isBuffer arguments (by simp [toString, Callee.writing])

theorem tells_writeBlock {name value : String} (isRun : IsRun name) (isName : Callee.IsName name.toList)
    (isBuffer : IsRun buffer) (told : Tells parcel value []) :
    Tells parcel s!"!{name}BlockMarshalling({buffer}, {value})"
      (Callee.on parcel buffer [.block name.toList]) := by
  have isFunction : IsRun (name ++ "BlockMarshalling") := .append isRun (by decide)
  have function : (name ++ "BlockMarshalling").toList = name.toList ++ Callee.writingBlock := by
    simp [Callee.writingBlock]
  have calls : Tells parcel s!"!{name}BlockMarshalling({buffer}, {value})" _ :=
    .callNot isFunction isBuffer told (by simp [toString])
  rwa [function, Callee.ofFunction?_writingBlock isName] at calls

theorem tells_descriptor {name : String} (isName : IsRun name) :
    Tells parcel s!"{name}::GetDescriptor()" [] := by
  have isFunction : IsRun (name ++ "::GetDescriptor") := .append isName (by decide)
  exact .nullary (IsPhrase.of_isRun isFunction).tells tells_empty (by simp [toString])

theorem tells_writeRemote {value name : String} (operand : Operand value)
    (isParcel : Callee.IsParcel parcel) (isBuffer : IsRun buffer) (isName : IsRun name) :
    Tells parcel
      s!"!{buffer}.WriteRemoteObject(OHOS::HDI::ObjectCollector::GetInstance().GetOrNewObject({value}, {name}::GetDescriptor()))"
      (Callee.on parcel buffer [.plain "RemoteObject".toList]) := by
  have spaced : Tells parcel (" " ++ name ++ "::GetDescriptor()") [] :=
    .join ' ' tells_empty (tells_descriptor isName) (by simp [toString]) rfl
  have both : Tells parcel (value ++ ", " ++ name ++ "::GetDescriptor()") [] :=
    .join ',' (operand.tells_self isParcel) spaced (by simp) rfl
  have closed : Tells parcel (value ++ ", " ++ name ++ "::GetDescriptor())") [] :=
    .join ')' both tells_empty (by simp) rfl
  have made : Tells parcel (".GetOrNewObject(" ++ value ++ ", " ++ name ++ "::GetDescriptor())") [] :=
    .chained isParcel (by decide : IsRun "GetOrNewObject") closed (by simp)
  have collector : Tells parcel "OHOS::HDI::ObjectCollector::GetInstance" [] :=
    (IsPhrase.of_isRun (by decide)).tells
  have object : Tells parcel ("OHOS::HDI::ObjectCollector::GetInstance().GetOrNewObject(" ++ value ++
      ", " ++ name ++ "::GetDescriptor())") [] := .nullary collector made (by simp)
  exact tells_write (by decide) isBuffer object (by simp [toString, Callee.writing])

/-- A queue writes itself, if it is there. -/
theorem tells_writeQueue {value : String} (operand : Operand value)
    (isParcel : Callee.IsParcel parcel) (isBuffer : IsRun buffer) :
    Tells parcel
      s!"{value} == nullptr || !{value}->IsGood() || {value}->GetMeta() == nullptr || !{value}->GetMeta()->Marshalling({buffer})"
      (Callee.on parcel buffer [.queue]) := by
  have member : ∀ {suffix : String}, isSilent suffix.toList = true →
      Tells parcel (value ++ suffix) [] := fun silent => operand.tells isParcel silent (by simp)
  have isMeta := member (by decide : isSilent "->GetMeta".toList = true)
  have isGood := member (by decide : isSilent "->IsGood".toList = true)
  have absent : Tells parcel "== nullptr || " [] := tells_iff.mpr (by simp +decide)
  have written : Tells parcel ("->Marshalling(" ++ buffer ++ ")") (Callee.on parcel buffer [.queue]) :=
    .call ')' (by decide : IsRun "->Marshalling") isBuffer tells_empty (by simp) rfl
  have last : Tells parcel (value ++ "->GetMeta()->Marshalling(" ++ buffer ++ ")") _ :=
    .nullary isMeta written (by simp)
  let queued := value ++ "->GetMeta()->Marshalling(" ++ buffer ++ ")"
  have checked : Tells parcel ("== nullptr || !" ++ queued) _ :=
    .join '!' absent last (by simp [queued]) rfl
  have present : Tells parcel (" == nullptr || !" ++ queued) _ :=
    .join ' ' tells_empty checked (by simp) rfl
  have third : Tells parcel (value ++ "->GetMeta() == nullptr || !" ++ queued) _ :=
    .nullary isMeta present (by simp)
  have or : Tells parcel " ||" [] := tells_iff.mpr (by simp +decide)
  have behind : Tells parcel (" || " ++ value ++ "->GetMeta() == nullptr || !" ++ queued) _ :=
    .join ' ' or third (by simp) rfl
  have second : Tells parcel
      (value ++ "->IsGood() || " ++ value ++ "->GetMeta() == nullptr || !" ++ queued) _ :=
    .nullary isGood behind (by simp)
  have first : Tells parcel (value ++ " == nullptr || ") [] :=
    .join ' ' (operand.tells_self isParcel) absent (by simp) rfl
  exact .join '!' first second (by simp [toString, queued]) rfl

/-- A loop over the elements of a container. -/
theorem emits_elements {item value : String} {body : Code} {calls : List WireCall}
    (operand : Operand value) (isParcel : Callee.IsParcel parcel) (isItem : IsRun item)
    (emits : Emits skip parcel body (Callee.on parcel buffer calls)) :
    Emits skip parcel (Code.braced s!"for (const auto& {item} : {value})" body)
      (Callee.on parcel buffer (calls.map (WireCall.inside 1))) := by
  have declared : Tells parcel s!"const auto& {item} :" [] :=
    tells_iff.mpr (by simp +decide [toString, isItem])
  have told : Tells parcel s!"const auto& {item} : {value}" [] :=
    .join ' ' declared (operand.tells_self isParcel) (by simp [toString]) rfl
  have opens : Opens skip parcel s!"for (const auto& {item} : {value})" .loop [] :=
    .for (by simp [toString]) told
  have looped := Emits.braced opens emits
  rwa [Block.around, Callee.on_map] at looped

theorem tells_null {value : String} (operand : Operand value) (isParcel : Callee.IsParcel parcel) :
    Tells parcel s!"{value} == nullptr" [] := by
  have told : Tells parcel "== nullptr" [] := tells_iff.mpr (by simp +decide)
  exact .join ' ' (operand.tells_self isParcel) told (by simp [toString]) rfl

end Statements

section Values

variable {context : EmitContext} {skip : Option (List Char)} {parcel : List Char}
variable {buffer leave : String}

/-- A parcel function of a kind is called once, if there is one. -/
def ofKind (kind? : Option String) : List WireCall :=
  kind?.toList.map fun kind => ⟨.plain kind.toList, 0⟩

/-- The number of elements, then the elements inside of a loop. -/
def counted (elements : List WireCall) : List WireCall :=
  ⟨.plain "Uint32".toList, 0⟩ :: elements.map (WireCall.inside 1)

/-- What a value is written and read with, for at most `levels` levels of containers. -/
def wireShape (context : EmitContext) : Nat → TypeId → List WireCall
  | 0, _ => []
  | levels + 1, type =>
    match context.types.node type with
    | .primitive primitive => ofKind (wireKind? primitive)
    | .enum declared => ofKind (parcelSuffix? declared.base)
    | .struct record => [⟨.block (declaredName context record.namespaceId record.name).toList, 0⟩]
    | .union _ => ofKind (some "UnpadBuffer")
    | .array element | .list element => counted (wireShape context levels element)
    | .map key mapped => counted (wireShape context levels key ++ wireShape context levels mapped)
    | .interface _ => ofKind (some "RemoteObject")
    | .sequenceable _ => ofKind (some "StrongParcelable")
    | .queue _ => [⟨.queue, 0⟩]

/-- A primitive value is written by one call, unless there is nothing to write. -/
theorem writeWithin_primitive {levels depth : Nat} {type : TypeId} {value : String}
    {primitive : Primitive} (node : context.types.node type = .primitive primitive) :
    (wireKind? primitive = none ∧
        writeWithin context leave buffer (levels + 1) type value depth = []) ∨
      ∃ kind arguments, wireKind? primitive = some kind ∧
        (arguments = value ∨ arguments = value ++ ".c_str()") ∧
        writeWithin context leave buffer (levels + 1) type value depth =
          leaveIf leave s!"!{buffer}.Write{kind}({arguments})" s!"write {shown value}" := by
  rw [writeWithin, node]
  cases primitive with
  | void => exact .inl ⟨rfl, rfl⟩
  | string => exact .inr ⟨"CString", _, rfl, .inr rfl, by simp [toString, String.append_assoc]⟩
  | fileDescriptor => exact .inr ⟨"FileDescriptor", _, rfl, .inl rfl, by simp [toString, String.append_assoc]⟩
  | _ => exact .inr ⟨_, _, rfl, .inl rfl, rfl⟩

theorem emits_writeWithin {levels depth : Nat} {type : TypeId} {value : String}
    (spelled : context.program.Spelled) (isParcel : Callee.IsParcel parcel) (isBuffer : IsRun buffer)
    (leaves : Tells parcel leave []) (operand : Operand value) :
    Emits skip parcel (writeWithin context leave buffer levels type value depth)
      (Callee.on parcel buffer (wireShape context levels type)) := by
  induction levels generalizing type value depth with
  | zero => exact Callee.on_nil.symm ▸ .nil
  | succ levels ih =>
      have isShown := operand.tame_shown isParcel
      have isMessage : Tame s!"write {shown value}" := by simp +decide [toString, isShown]
      have isSize : Tame (s!"write {shown value}" ++ " size") := by simp +decide [toString, isShown]
      have told := operand.tells_self isParcel
      have words : ∀ name ∈ (context.types.node type).names, Text.IsWord name := spelled.types type
      have written : ∀ {failed : String} {callees : List Callee},
          Tells parcel failed (Callee.on parcel buffer callees) → failed.toList.head? = some '!' →
          Emits skip parcel (leaveIf leave failed s!"write {shown value}")
            (Callee.on parcel buffer (WireCall.ofCallees callees)) := emits_check leaves isMessage
      have sized := @emits_check skip parcel buffer leave _ _ _ leaves isSize
        (tells_writeSize operand isParcel isBuffer) (by simp [toString])
      have isItem : IsNumbered s!"it{depth}" := isNumbered_append (List.all_eq_true.mp rfl) depth
      cases node : context.types.node type with
      | primitive primitive =>
          rw [wireShape, node]
          rcases @writeWithin_primitive context buffer leave levels depth type value primitive node with
            ⟨isVoid, same⟩ | ⟨kind, arguments, isKind, isArgument, same⟩
          · rw [same]
            simp only [isVoid]
            exact Callee.on_nil.symm ▸ .nil
          · rw [same]
            simp only [isKind]
            have isTold : Tells parcel arguments [] := by
              rcases isArgument with rfl | rfl
              · exact told
              · exact tells_text operand isParcel
            exact written (tells_writeKind (isKind_wireKind isKind) isBuffer isTold)
              (by simp [toString])
      | enum declared =>
          rw [writeWithin, wireShape, node]
          cases isSuffix : parcelSuffix? declared.base with
          | none =>
              simp only [isSuffix]
              exact Callee.on_nil.symm ▸ .nil
          | some suffix =>
              simp only [isSuffix]
              exact written (tells_write (isKind_parcelSuffix isSuffix) isBuffer
                (tells_cast (isRun_primitiveType declared.base) told)
                (by simp [toString, Callee.writing])) (by simp [toString])
      | struct record =>
          rw [writeWithin, wireShape, node]
          have isWord : Text.IsWord record.name := words _ (by rw [node]; exact List.mem_cons_self)
          exact written (tells_writeBlock (isRun_declaredName spelled isWord _)
            (isName_declaredName spelled isWord _) isBuffer told) (by simp [toString])
      | union record =>
          rw [writeWithin, wireShape, node]
          have isWord : Text.IsWord record.name := words _ (by rw [node]; exact List.mem_cons_self)
          exact written (tells_writeBytes operand isParcel isBuffer
            (isRun_declaredName spelled isWord _)) (by simp [toString])
      | array element =>
          rw [writeWithin, wireShape, node]
          have looped := emits_elements operand isParcel isItem.isRun
            (@ih (depth + 1) element _ (.word isItem.isWord))
          have both := sized.append looped
          rwa [← Callee.on_append] at both
      | list element =>
          rw [writeWithin, wireShape, node]
          have looped := emits_elements operand isParcel isItem.isRun
            (@ih (depth + 1) element _ (.word isItem.isWord))
          have both := sized.append looped
          rwa [← Callee.on_append] at both
      | map key mapped =>
          rw [writeWithin, wireShape, node]
          have elements := (@ih (depth + 1) key _ (.key isItem)).append
            (@ih (depth + 1) mapped _ (.mapped isItem))
          rw [← Callee.on_append] at elements
          have both := sized.append (emits_elements operand isParcel isItem.isRun elements)
          rwa [← Callee.on_append] at both
      | interface declared =>
          rw [writeWithin, wireShape, node]
          have isWord : Text.IsWord declared.name := words _ (by rw [node]; exact List.mem_cons_self)
          have isCheck : Tame s!"check {shown value}" := by simp +decide [toString, isShown]
          have present := @emits_leaveIf skip parcel leave _ _ _ leaves isCheck
            (operand.not_skips_of_blank (by simp [toString])) (tells_null operand isParcel)
          exact present.quiet_append (written (tells_writeRemote operand isParcel isBuffer
            (isRun_declaredName spelled isWord _)) (by simp [toString]))
      | sequenceable declared =>
          rw [writeWithin, wireShape, node]
          exact written (tells_write (by decide : IsKind "StrongParcelable") isBuffer told
            (by simp [toString, Callee.writing])) (by simp [toString])
      | queue element =>
          rw [writeWithin, wireShape, node]
          have emits := @emits_leaveIf skip parcel leave _ _ _ leaves isMessage
            (operand.not_skips_of_blank (by simp [toString]))
            (tells_writeQueue operand isParcel isBuffer)
          rwa [WireCall.ofCallees, Callee.on_map] at emits

end Values

end CppCode

end DriverIdl
