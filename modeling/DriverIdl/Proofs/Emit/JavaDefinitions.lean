import DriverIdl.Proofs.Emit.CppReading
import DriverIdl.Proofs.Emit.HeaderFrames

/-!
# What Java classes define

The class of a unit nests those of its enums and structs.  Their methods open blocks as well, for
conditions and loops, and none of these is a definition.
-/

namespace DriverIdl

open CodeLexeme

namespace JavaCode

open CppCode (isWord_lastWord)

variable {context : EmitContext}

/-- Nothing that a unit names holds a line break. -/
structure OneLine (context : EmitContext) : Prop where
  spelled : context.program.Spelled
  outer : ∀ id, ∀ name ∈ (context.types.node id).outer?, '\n' ∉ name.toList

section Spellings

theorem oneLine_nestedName {unit name : String} (isUnit : '\n' ∉ unit.toList)
    (isName : '\n' ∉ name.toList) : '\n' ∉ (nestedName context unit name).toList := by
  rw [nestedName]
  split
  · exact isName
  · simp [isUnit, isName]

theorem OneLine.name (oneLine : OneLine context) {id : TypeId} {name : String}
    (listed : name ∈ (context.types.node id).names) : '\n' ∉ name.toList :=
  (oneLine.spelled.types id name listed).isRun.tame.oneLine

theorem OneLine.interface (oneLine : OneLine context) {id : TypeId} {declared : InterfaceType}
    (isInterface : context.types.node id = .interface declared) :
    '\n' ∉ declared.name.toList ∧ '\n' ∉ (Text.baseName declared.name).toList := by
  have isName : Text.IsWord declared.name := by
    apply oneLine.spelled.types id
    rw [show context.program.types.node id = _ from isInterface]
    exact List.mem_cons_self
  exact ⟨isName.isRun.tame.oneLine, (Text.isWord_baseName isName).isRun.tame.oneLine⟩

theorem oneLine_typeWithin (oneLine : OneLine context) {levels : Nat} {boxed : Bool} {type : TypeId}
    {text : String} (rendered : typeWithin context levels boxed type = .ok text) :
    '\n' ∉ text.toList := by
  induction levels generalizing boxed type text with
  | zero =>
      cases rendered
      decide
  | succ levels ih =>
      have name {name : String} (listed : name ∈ (context.types.node type).names) :=
        oneLine.name listed
      have outer {unit : String} (isOuter : unit ∈ (context.types.node type).outer?) :=
        oneLine.outer type unit isOuter
      rw [typeWithin] at rendered
      cases node : context.types.node type with
      | primitive primitive =>
          rw [node] at rendered
          cases rendered
          cases primitive <;> cases boxed <;> decide
      | enum declared | struct record =>
          rw [node] at rendered name outer
          cases rendered
          exact oneLine_nestedName (outer rfl) (name List.mem_cons_self)
      | array element | list element =>
          rw [node] at rendered
          obtain ⟨inner, isInner, rendered⟩ := Emit.bind_eq_ok.mp rendered
          cases rendered
          simp [toString, ih isInner]
      | map key value =>
          rw [node] at rendered
          obtain ⟨keyType, isKey, rendered⟩ := Emit.bind_eq_ok.mp rendered
          obtain ⟨valueType, isValue, rendered⟩ := Emit.bind_eq_ok.mp rendered
          cases rendered
          simp [toString, ih isKey, ih isValue]
      | interface declared | sequenceable declared =>
          rw [node] at rendered name
          cases rendered
          exact name List.mem_cons_self
      | union record | queue element =>
          rw [node] at rendered
          cases rendered

end Spellings

section Statements

/-- A block behind a word that no definition starts with defines what its body does. -/
theorem definedIn_braced {word head : String} {rest : List Char} {body : Code}
    (isWord : word ∈ ["for", "if"]) (oneLine : '\n' ∉ head.toList)
    (spelled : head.toList = word.toList ++ ' ' :: rest)
    (quiet : Language.java.definedIn body = []) :
    Language.java.definedIn (Code.braced head body) = [] := by
  refine (Language.definedIn_bracedWith_of_quiet quiet (by decide)).trans ?_
  have isRun : IsRun word := by
    rcases List.mem_pair.mp isWord with rfl | rfl <;> decide
  apply definedOn_of_first isRun (by decide : separates ' ' = true) (by simp [oneLine])
    (by simp [spelled] : _ = word.toList ++ ' ' :: (rest ++ [' ', '\x7b']))
  rcases List.mem_pair.mp isWord with rfl | rfl <;> decide

theorem definedIn_branch {condition statement : String} (oneLine : '\n' ∉ condition.toList)
    (isStatement : Unopened statement) :
    Language.java.definedIn (Code.branch condition [statement]) = [] :=
  definedIn_braced (by decide : "if" ∈ _) (by simp [toString, oneLine]) (by simp [toString]; rfl)
    isStatement.definedIn

/-- A statement behind which a method may be left. -/
theorem definedIn_checked {text condition leave : String} (isText : Unopened text)
    (isCondition : '\n' ∉ condition.toList) (isLeave : Unopened leave) :
    Language.java.definedIn (Code.line text ++ Code.branch condition [leave]) = [] := by
  rw [Language.definedIn_append, isText.definedIn, definedIn_branch isCondition isLeave,
    List.append_nil]

end Statements

section Values

theorem oneLine_parcelSuffix {primitive : Primitive} {suffix : String}
    (isSuffix : parcelSuffix? primitive = some suffix) : '\n' ∉ suffix.toList := by
  cases primitive <;> cases isSuffix <;> decide

theorem oneLine_numbered {word : String} (oneLine : '\n' ∉ word.toList) (number : Nat) :
    '\n' ∉ s!"{word}{number}".toList := by
  simp [toString, oneLine, oneLine_digits]

variable {parcel : String}

/-- A loop over the items of a container, behind its size. -/
theorem definedIn_writeItems {size head : String} {rest : List Char} {body : Code}
    (isSize : Unopened size) (isHead : '\n' ∉ head.toList)
    (spelled : head.toList = "for".toList ++ ' ' :: rest)
    (quiet : Language.java.definedIn body = []) :
    Language.java.definedIn (Code.line size ++ Code.braced head body) = [] := by
  rw [Language.definedIn_append, isSize.definedIn, List.nil_append]
  exact definedIn_braced (by decide : "for" ∈ _) isHead spelled quiet

/-- Writing a value starts no definition. -/
theorem definedIn_writeWithin (oneLine : OneLine context) (isParcel : '\n' ∉ parcel.toList)
    {levels : Nat} {type : TypeId} {value : String} {depth : Nat} {code : Code}
    (isValue : '\n' ∉ value.toList)
    (rendered : writeWithin context parcel levels type value depth = .ok code) :
    Language.java.definedIn code = [] := by
  induction levels generalizing type value depth code with
  | zero =>
      cases rendered
      rfl
  | succ levels ih =>
      have isItem : '\n' ∉ s!"it{depth}".toList := oneLine_numbered (by decide) depth
      rw [writeWithin] at rendered
      cases node : context.types.node type with
      | primitive primitive | enum declared =>
          simp only [node] at rendered
          split at rendered
          · rename_i suffix isSuffix
            cases rendered
            refine (Unopened.of_append ?_ (by decide)).definedIn
            simp [toString, isParcel, oneLine_parcelSuffix isSuffix, isValue]
          · cases rendered
            rfl
      | struct record | sequenceable declared | interface declared =>
          simp only [node] at rendered
          cases rendered
          refine (Unopened.of_append ?_ (by decide)).definedIn
          simp [toString, isParcel, isValue]
      | array element | list element =>
          simp only [node] at rendered
          obtain ⟨itemType, isType, rendered⟩ := Emit.bind_eq_ok.mp rendered
          obtain ⟨body, isBody, rendered⟩ := Emit.bind_eq_ok.mp rendered
          cases rendered
          refine definedIn_writeItems (.of_append ?_ (by decide)) ?_ (by simp [toString]; rfl)
            (ih isItem isBody)
          · simp [toString, isParcel, isValue]
          · simpa [toString, isValue, oneLine_typeWithin oneLine isType] using isItem
      | map key mapped =>
          simp only [node] at rendered
          obtain ⟨keyType, isKey, rendered⟩ := Emit.bind_eq_ok.mp rendered
          obtain ⟨valueType, isMapped, rendered⟩ := Emit.bind_eq_ok.mp rendered
          obtain ⟨keyCode, isKeyCode, rendered⟩ := Emit.bind_eq_ok.mp rendered
          obtain ⟨valueCode, isValueCode, rendered⟩ := Emit.bind_eq_ok.mp rendered
          cases rendered
          have isKeyItem : '\n' ∉ s!"it{depth}.getKey()".toList := by
            simpa [toString] using isItem
          have isValueItem : '\n' ∉ s!"it{depth}.getValue()".toList := by
            simpa [toString] using isItem
          refine definedIn_writeItems (.of_append ?_ (by decide)) ?_ (by simp [toString]; rfl) ?_
          · simp [toString, isParcel, isValue]
          · simpa [toString, isValue, oneLine_typeWithin oneLine isKey,
              oneLine_typeWithin oneLine isMapped] using isItem
          · rw [Language.definedIn_append, ih isKeyItem isKeyCode, ih isValueItem isValueCode]
            rfl
      | union record | queue element =>
          simp only [node] at rendered
          cases rendered

theorem oneLine_newArray {element size : String} (isElement : '\n' ∉ element.toList)
    (isSize : '\n' ∉ size.toList) : '\n' ∉ (newArray element size).toList := by
  have raw : '\n' ∉ (element.toList.takeWhile (· != '[')).takeWhile (· != '<') :=
    fun inside => isElement ((List.takeWhile_subset _ (List.takeWhile_subset _ inside)))
  have dimensions : '\n' ∉ element.toList.dropWhile (· != '[') :=
    fun inside => isElement (List.dropWhile_subset _ inside)
  simp [newArray, toString, raw, dimensions, isSize]

/-- A loop over as many items as were announced, behind the check of their number. -/
theorem definedIn_readItems {leave size text : String} {depth : Nat} {body : Code}
    (isLeave : Unopened leave) (isParcel : '\n' ∉ parcel.toList) (isSize : '\n' ∉ size.toList)
    (isText : Unopened text) (quiet : Language.java.definedIn body = []) :
    Language.java.definedIn
      (readSize leave parcel size ++ Code.line text ++ countedLoop depth size body) = [] := by
  have loop : Language.java.definedIn (countedLoop depth size body) = [] := by
    refine definedIn_braced (by decide : "for" ∈ _) ?_ (by simp [toString]; rfl) quiet
    simp [toString, isSize, oneLine_digits]
  have announced : Language.java.definedIn (readSize leave parcel size) = [] := by
    refine definedIn_checked (.of_append ?_ (by decide)) ?_ isLeave
    · simp [toString, isSize, isParcel]
    · simp [toString, isSize]
  rw [Language.definedIn_append, Language.definedIn_append, announced, isText.definedIn, loop]
  rfl

/-- An item of a container is declared in front of what reads it. -/
theorem definedIn_readItem (oneLine : OneLine context) {id : TypeId} {itemType item : String}
    {code : Code} (isType : typeName context id = .ok itemType) (isItem : '\n' ∉ item.toList)
    (quiet : Language.java.definedIn code = []) :
    Language.java.definedIn (Code.line s!"{itemType} {item};" ++ code) = [] := by
  have declaration : Unopened s!"{itemType} {item};" := by
    refine .of_append ?_ (by decide)
    simp [toString, isItem, oneLine_typeWithin oneLine isType]
  rw [Language.definedIn_append, declaration.definedIn, quiet, List.append_nil]

/-- Reading a value starts no definition. -/
theorem definedIn_readWithin (oneLine : OneLine context) {leave : String}
    (isLeave : Unopened leave) (isParcel : '\n' ∉ parcel.toList) {levels : Nat} {type : TypeId}
    {target : String} {depth : Nat} {code : Code} (isTarget : '\n' ∉ target.toList)
    (rendered : readWithin context leave parcel levels type target depth = .ok code) :
    Language.java.definedIn code = [] := by
  induction levels generalizing type target depth code with
  | zero =>
      cases rendered
      rfl
  | succ levels ih =>
      have isSize : '\n' ∉ s!"{lastWord target}Size{depth}".toList := by
        simp [toString, (isWord_lastWord target).isRun.tame.oneLine, oneLine_digits]
      have isKeyItem : '\n' ∉ s!"key{depth}".toList := oneLine_numbered (by decide) depth
      have isValueItem : '\n' ∉ s!"value{depth}".toList := oneLine_numbered (by decide) depth
      rw [readWithin] at rendered
      cases node : context.types.node type with
      | primitive primitive =>
          simp only [node] at rendered
          split at rendered
          · rename_i suffix isSuffix
            cases rendered
            refine (Unopened.of_append ?_ (by decide)).definedIn
            simp [toString, isTarget, isParcel, oneLine_parcelSuffix isSuffix]
          · cases rendered
            rfl
      | enum declared =>
          simp only [node] at rendered
          split at rendered
          · rename_i suffix isSuffix
            cases rendered
            have isOuter : declared.unit ∈ (context.types.node type).outer? := by rw [node]; rfl
            have listed : declared.name ∈ (context.types.node type).names := by
              rw [node]
              exact List.mem_cons_self
            have isName : '\n' ∉ (nestedName context declared.unit declared.name).toList :=
              oneLine_nestedName (oneLine.outer type _ isOuter) (oneLine.name listed)
            refine (Unopened.of_append ?_ (by decide)).definedIn
            simp [toString, isTarget, isParcel, oneLine_parcelSuffix isSuffix, isName]
          · cases rendered
            rfl
      | struct record | sequenceable declared =>
          simp only [node] at rendered
          obtain ⟨name, isName, rendered⟩ := Emit.bind_eq_ok.mp rendered
          cases rendered
          refine definedIn_checked (.of_append ?_ (by decide)) ?_ isLeave
          · simp [toString, isTarget, oneLine_typeWithin oneLine isName]
          · simp [toString, isParcel, isTarget]
      | array element =>
          simp only [node] at rendered
          obtain ⟨itemType, isType, rendered⟩ := Emit.bind_eq_ok.mp rendered
          obtain ⟨body, isBody, rendered⟩ := Emit.bind_eq_ok.mp rendered
          cases rendered
          have isItem : '\n' ∉ s!"{target}[i{depth}]".toList := by
            simp [toString, isTarget, oneLine_digits]
          have isArray := oneLine_newArray (oneLine_typeWithin oneLine isType) isSize
          refine definedIn_readItems isLeave isParcel isSize (.of_append ?_ (by decide)) (ih isItem isBody)
          simpa [toString, isTarget] using isArray
      | list element =>
          simp only [node] at rendered
          obtain ⟨itemType, isType, rendered⟩ := Emit.bind_eq_ok.mp rendered
          obtain ⟨body, isBody, rendered⟩ := Emit.bind_eq_ok.mp rendered
          cases rendered
          refine definedIn_readItems isLeave isParcel isSize (.of_append ?_ (by decide)) ?_
          · simpa [toString, isTarget] using isSize
          · rw [List.append_assoc]
            apply definedIn_readItem oneLine isType isValueItem
            rw [Language.definedIn_append, ih isValueItem isBody, List.nil_append]
            refine (Unopened.of_append ?_ (by decide)).definedIn
            simp [toString, isTarget, oneLine_digits]
      | map key mapped =>
          simp only [node] at rendered
          obtain ⟨keyType, isKey, rendered⟩ := Emit.bind_eq_ok.mp rendered
          obtain ⟨keyCode, isKeyCode, rendered⟩ := Emit.bind_eq_ok.mp rendered
          obtain ⟨valueType, isMapped, rendered⟩ := Emit.bind_eq_ok.mp rendered
          obtain ⟨valueCode, isValueCode, rendered⟩ := Emit.bind_eq_ok.mp rendered
          cases rendered
          refine definedIn_readItems isLeave isParcel isSize (.of_append ?_ (by decide)) ?_
          · simp [toString, isTarget]
          · simp only [List.append_assoc]
            apply definedIn_readItem oneLine isKey isKeyItem
            rw [Language.definedIn_append, ih isKeyItem isKeyCode, List.nil_append]
            apply definedIn_readItem oneLine isMapped isValueItem
            rw [Language.definedIn_append, ih isValueItem isValueCode, List.nil_append]
            refine (Unopened.of_append ?_ (by decide)).definedIn
            simp [toString, isTarget, oneLine_digits]
      | interface declared =>
          simp only [node] at rendered
          cases rendered
          refine definedIn_checked (.of_append ?_ (by decide)) ?_ isLeave
          · simp [toString, isTarget, isParcel, (oneLine.interface node).2]
          · simp [toString, isTarget]
      | union record | queue element =>
          simp only [node] at rendered
          cases rendered

end Values

section Classes

variable {name : String}

theorem definedOn_enumHead (isName : Text.IsWord name) :
    Language.java.definedOn (s!"public enum {name}" ++ " \x7b") = [name.toList] := by
  have isRun := isName.isRun
  refine definedOn_of_definition [['p', 'u', 'b', 'l', 'i', 'c'], ['e', 'n', 'u', 'm']] [] ?_ rfl ?_ ?_
    (by decide)
  · simp [toString, isRun.tame.oneLine]
  · simp +decide [ofLine, toString, isRun, List.getLast?_cons]
  · simp +decide [ofLine, toString, isRun, words]

theorem definedOn_structHead (isName : Text.IsWord name) :
    Language.java.definedOn
      (s!"public static final class {name} implements Sequenceable" ++ " \x7b") = [name.toList] := by
  have isRun := isName.isRun
  refine definedOn_of_definition
    [['p', 'u', 'b', 'l', 'i', 'c'], ['s', 't', 'a', 't', 'i', 'c'], ['f', 'i', 'n', 'a', 'l'],
      ['c', 'l', 'a', 's', 's']]
    ["implements".toList, "Sequenceable".toList] ?_ rfl ?_ ?_ (by decide)
  · simp [toString, isRun.tame.oneLine]
  · simp +decide [ofLine, toString, isRun, List.getLast?_cons]
  · simp +decide [ofLine, toString, isRun, words]

theorem definedOn_interfaceHead (isName : Text.IsWord name) :
    Language.java.definedOn (s!"public interface {name} extends IRemoteBroker" ++ " \x7b") =
      [name.toList] := by
  have isRun := isName.isRun
  refine definedOn_of_definition
    [['p', 'u', 'b', 'l', 'i', 'c'], ['i', 'n', 't', 'e', 'r', 'f', 'a', 'c', 'e']]
    ["extends".toList, "IRemoteBroker".toList] ?_ rfl ?_ ?_ (by decide)
  · simp [toString, isRun.tame.oneLine]
  · simp +decide [ofLine, toString, isRun, List.getLast?_cons]
  · simp +decide [ofLine, toString, isRun, words]

theorem oneLine_enumValue (base : Primitive) (value : Int) : '\n' ∉ (enumValue base value).toList := by
  cases base <;> simp [enumValue, primitiveType, toString, Int.oneLine_repr]

theorem definedOn_of_words {text : String} (first : List (List Char)) (oneLine : '\n' ∉ text.toList)
    (starts : words (ofLine text.toList) = first)
    (other : ∀ definer ∈ Language.java.definers, ¬definer <+: first) :
    Language.java.definedOn text = [] := by
  rw [definedOn_of_row oneLine, definedName?_eq_none, Option.toList_none]
  rwa [starts]

section Enums

variable {base : String}

theorem definedIn_constructor (isName : Text.IsWord name) (isBase : IsRun base) :
    Language.java.definedIn
      (Code.braced s!"{name}({base} value)" (Code.line "this.value = value;")) = [] := by
  have isRun := isName.isRun
  refine (Language.definedIn_bracedWith_of_quiet (by decide) (by decide)).trans ?_
  apply definedOn_of_words [name.toList]
  · simp [toString, isRun.tame.oneLine, isBase.tame.oneLine]
  · have spelled : (s!"{name}({base} value)" ++ " \x7b").toList =
        name.toList ++ '(' :: (base.toList ++ " value) \x7b".toList) := by
      simp [toString]
    rw [spelled, isRun.ofLine_append, isRun.lexFrom_append, lexFrom_of_separates (by decide)]
    rfl
  · simp [Language.definers]

theorem definedIn_getter (isBase : IsRun base)
    (other : base ∉ ["enum", "static", "interface"]) :
    Language.java.definedIn (Code.braced s!"public {base} getValue()" (Code.line "return value;")) =
      [] := by
  refine (Language.definedIn_bracedWith_of_quiet (by decide) (by decide)).trans ?_
  apply definedOn_of_words ["public".toList, base.toList, "getValue".toList]
  · simp [toString, isBase.tame.oneLine]
  · simp +decide [ofLine, toString, isBase, words]
  · have differs {word : String} (listed : word ∈ ["enum", "static", "interface"]) :
        word.toList ≠ base.toList :=
      fun same => other (String.toList_injective same ▸ listed)
    have isEnum := differs (List.mem_cons_self : "enum" ∈ _)
    have isStatic := differs (by decide : "static" ∈ _)
    have isInterface := differs (by decide : "interface" ∈ _)
    simp_all [Language.definers, List.cons_prefix_cons]

theorem definedIn_fromValue (isName : Text.IsWord name) (isBase : IsRun base) :
    Language.java.definedIn
      (Code.braced s!"public static {name} fromValue({base} value)"
        (Code.braced s!"for ({name} item : values())"
            (Code.branch "item.value == value" ["return item;"]) ++
          Code.line "return null;")) = [] := by
  have isRun := isName.isRun
  refine (Language.definedIn_bracedWith_of_quiet ?_ (by decide)).trans ?_
  · rw [Language.definedIn_append,
      definedIn_braced (by decide : "for" ∈ _) ?_ (by simp [toString]; rfl) (by decide)]
    · decide
    · simp [toString, isRun.tame.oneLine]
  · apply definedOn_of_words ["public".toList, "static".toList, name.toList, "fromValue".toList]
    · simp [toString, isRun.tame.oneLine, isBase.tame.oneLine]
    · simp +decide [ofLine, toString, isRun, isBase, words]
    · simp [Language.definers, List.cons_prefix_cons]

end Enums

/-- The class of an enum defines the enum, and nothing inside. -/
theorem definedIn_enumClass {declared : EnumType} (isName : Text.IsWord declared.name)
    (named : ∀ member ∈ declared.members, Text.IsWord member.name) :
    Language.java.definedIn (enumClass declared) = [declared.name.toList] := by
  have base : IsRun (primitiveType false declared.base) := by
    cases declared.base <;> decide
  have field : Language.java.definedIn
      (Code.line s!"private final {primitiveType false declared.base} value;") = [] := by
    refine (Unopened.of_append ?_ (by decide)).definedIn
    simp [toString, base.tame.oneLine]
  have getter := definedIn_getter base (by cases declared.base <;> decide)
  refine (Language.definedIn_bracedWith_of_quiet ?_ (by decide)).trans (definedOn_enumHead isName)
  rw [Language.definedIn_append, Language.definedIn_paragraphs, definedIn_fromValue isName base]
  simp only [List.flatMap_cons, List.flatMap_nil, field, getter, definedIn_constructor isName base,
    List.append_nil]
  have constant {text mark : String} (isMark : mark ∈ [",", ";"])
      (listed : text ∈ declared.members.map fun member =>
        s!"{member.name}({enumValue declared.base member.value})") :
      Language.java.definedOn (text ++ mark) = [] := by
    obtain ⟨member, isMember, rfl⟩ := List.mem_map.mp listed
    have isMember := (named member isMember).isRun.tame.oneLine
    refine (Unopened.of_append ?_ ?_).definedOn
    · simp [toString, isMember, oneLine_enumValue]
    · rcases List.mem_pair.mp isMark with rfl | rfl <;> decide
  refine Language.definedIn_lines fun text listed => ?_
  split at listed
  · rename_i last isLast
    rcases List.mem_append.mp listed with early | final
    · obtain ⟨before, isBefore, rfl⟩ := List.mem_map.mp early
      exact constant (by decide) (List.mem_of_mem_dropLast isBefore)
    · rw [List.mem_singleton.mp final]
      exact constant (by decide) (List.mem_of_getLast? isLast)
  · rw [List.mem_singleton.mp listed]
    decide

theorem definedIn_fieldDeclaration (oneLine : OneLine context) {member : Member}
    (isName : Text.IsWord member.name) {text : String}
    (rendered : fieldDeclaration context member = .ok text) :
    Language.java.definedOn text = [] := by
  obtain ⟨type, isType, rendered⟩ := Emit.bind_eq_ok.mp rendered
  have isType := oneLine_typeWithin oneLine isType
  have isName := isName.isRun.tame.oneLine
  cases rendered
  split
  all_goals
    refine (Unopened.of_append ?_ (by decide)).definedOn
    simp [toString, isType, isName]

theorem definedIn_forEach {α : Type} {items : List α} {code : α → Emit Code} {whole : Code}
    (rendered : Code.forEach items code = .ok whole)
    (quiet : ∀ item ∈ items, ∀ part, code item = .ok part → Language.java.definedIn part = []) :
    Language.java.definedIn whole = [] := by
  obtain ⟨parts, areParts, rendered⟩ := Emit.bind_eq_ok.mp rendered
  cases rendered
  rw [Language.definedIn_flatten, List.flatMap_eq_nil_iff]
  intro part listed
  obtain ⟨item, isItem, rendersTo⟩ := Emit.exists_of_mem_mapM areParts listed
  exact quiet item isItem part rendersTo

/-- The class of a struct defines the struct, and nothing inside. -/
theorem definedIn_structClass (oneLine : OneLine context) {record : RecordType}
    (isName : Text.IsWord record.name) (named : ∀ member ∈ record.members, Text.IsWord member.name)
    {code : Code} (rendered : structClass context record = .ok code) :
    Language.java.definedIn code = [record.name.toList] := by
  obtain ⟨fields, areFields, rendered⟩ := Emit.bind_eq_ok.mp rendered
  obtain ⟨writes, areWrites, rendered⟩ := Emit.bind_eq_ok.mp rendered
  obtain ⟨reads, areReads, rendered⟩ := Emit.bind_eq_ok.mp rendered
  cases rendered
  have field {member : Member} (listed : member ∈ record.members) :
      '\n' ∉ s!"this.{member.name}".toList := by
    simp [toString, (named member listed).isRun.tame.oneLine]
  have quietFields : Language.java.definedIn (Code.lines fields) = [] := by
    refine Language.definedIn_lines fun text listed => ?_
    obtain ⟨member, isMember, rendersTo⟩ := Emit.exists_of_mem_mapM areFields listed
    exact definedIn_fieldDeclaration oneLine (named member isMember) rendersTo
  have quietWrites : Language.java.definedIn writes = [] :=
    definedIn_forEach areWrites fun member listed part rendersTo =>
      definedIn_writeWithin oneLine (by decide) (field listed) rendersTo
  have quietReads : Language.java.definedIn reads = [] :=
    definedIn_forEach areReads fun member listed part rendersTo =>
      definedIn_readWithin oneLine (by decide) (by decide) (field listed) rendersTo
  have marshalling : Language.java.definedIn
      (Code.braced "public boolean marshalling(Parcel data)" (writes ++ Code.line "return true;")) =
        [] := by
    refine (Language.definedIn_bracedWith_of_quiet ?_ (by decide)).trans (by decide)
    rw [Language.definedIn_append, quietWrites]
    decide
  have unmarshalling : Language.java.definedIn
      (Code.braced "public boolean unmarshalling(Parcel data)" (reads ++ Code.line "return true;")) =
        [] := by
    refine (Language.definedIn_bracedWith_of_quiet ?_ (by decide)).trans (by decide)
    rw [Language.definedIn_append, quietReads]
    decide
  have override : Language.java.definedIn (Code.line "@Override") = [] := by decide
  refine (Language.definedIn_bracedWith_of_quiet ?_ (by decide)).trans (definedOn_structHead isName)
  simp only [Language.definedIn_append, Language.definedIn_blank, quietFields, marshalling,
    unmarshalling, override, List.append_nil]

/-- The code for a type defines the type, and nothing else. -/
theorem definedIn_nestedClass (oneLine : OneLine context) {node : TypeNode} (named : node.WordNamed)
    {code : Code} (rendered : nestedClass context node = .ok code) :
    Language.java.definedIn code = ((Language.java.definesAs? node).map String.toList).toList := by
  cases node with
  | enum declared =>
      cases rendered
      rw [Language.definedIn_append, Language.definedIn_blank, List.nil_append]
      exact definedIn_enumClass (named.names _ List.mem_cons_self) (named.values declared rfl)
  | struct record =>
      obtain ⟨body, isBody, rendered⟩ := Emit.bind_eq_ok.mp rendered
      cases rendered
      rw [Language.definedIn_append, Language.definedIn_blank, List.nil_append]
      exact definedIn_structClass oneLine (named.names _ List.mem_cons_self) (named.members rfl) isBody
  | _ =>
      cases rendered
      rfl

/-- The code for a type defines the type, whatever the names of files are. -/
theorem mem_definedIn_nestedClass {node : TypeNode} (named : node.WordNamed) {code : Code}
    (rendered : nestedClass context node = .ok code) {name : String}
    (defines : Language.java.definesAs? node = some name) :
    name.toList ∈ Language.java.definedIn code := by
  cases node with
  | enum declared =>
      cases rendered
      cases defines
      rw [Language.definedIn_append, definedIn_enumClass (named.names _ List.mem_cons_self)
        (named.values declared rfl)]
      exact List.mem_append_right _ List.mem_cons_self
  | struct record =>
      obtain ⟨body, isBody, rendered⟩ := Emit.bind_eq_ok.mp rendered
      obtain ⟨fields, areFields, isBody⟩ := Emit.bind_eq_ok.mp isBody
      obtain ⟨writes, areWrites, isBody⟩ := Emit.bind_eq_ok.mp isBody
      obtain ⟨reads, areReads, isBody⟩ := Emit.bind_eq_ok.mp isBody
      cases isBody
      cases rendered
      cases defines
      rw [Language.definedIn_append, Code.braced, Language.definedIn_bracedWith,
        definedOn_structHead (named.names _ List.mem_cons_self)]
      simp
  | _ => cases defines

end Classes

section Files

theorem oneLine_mentionedWithin (oneLine : OneLine context) (levels : Nat) (type : TypeId) :
    ∀ mention ∈ mentionedWithin context levels type, '\n' ∉ mention.toList := by
  induction levels generalizing type with
  | zero => exact fun mention listed => absurd listed List.not_mem_nil
  | succ levels ih =>
      have package (id : NamespaceId) : '\n' ∉ (context.program.namespaces.fullName id).toList :=
        oneLine.spelled.namespaces.oneLine id
      have name {name : String} (listed : name ∈ (context.types.node type).names) :=
        oneLine.name listed
      have outer {unit : String} (isOuter : unit ∈ (context.types.node type).outer?) :=
        oneLine.outer type unit isOuter
      intro mention listed
      rw [mentionedWithin] at listed
      cases node : context.types.node type with
      | primitive primitive =>
          rw [node] at listed
          cases primitive <;> simp at listed
          rw [listed]
          decide
      | enum declared | struct record | union record =>
          rw [node] at listed outer
          dsimp only at listed
          split at listed
          · rw [List.mem_singleton.mp listed]
            simp [package, outer rfl]
          · exact absurd listed List.not_mem_nil
      | array element | queue element =>
          rw [node] at listed
          exact ih element mention listed
      | list element =>
          rw [node] at listed
          rcases List.mem_append.mp listed with library | inner
          · rcases List.mem_pair.mp library with rfl | rfl <;> decide
          · exact ih element mention inner
      | map key value =>
          rw [node] at listed
          rcases List.mem_append.mp listed with early | inValue
          · rcases List.mem_append.mp early with library | inKey
            · rcases List.mem_pair.mp library with rfl | rfl <;> decide
            · exact ih key mention inKey
          · exact ih value mention inValue
      | interface declared =>
          rw [node] at listed
          dsimp only at listed
          split at listed
          · rcases List.mem_pair.mp listed with rfl | rfl
            · simp [package, (oneLine.interface node).1]
            · simp [package, (oneLine.interface node).2]
          · exact absurd listed List.not_mem_nil
      | sequenceable declared =>
          rw [node] at listed name
          rw [List.mem_singleton.mp listed]
          simp [package, name List.mem_cons_self]

theorem mem_of_mem_eraseRepsLoop {α : Type} {same : α → α → Bool} {item first : α} {rest kept : List α}
    (listed : item ∈ List.eraseRepsBy.loop same first rest kept) : item ∈ kept ++ first :: rest := by
  induction rest generalizing first kept with
  | nil => simpa [List.eraseRepsBy.loop, or_comm] using listed
  | cons second others ih =>
      rw [List.eraseRepsBy.loop] at listed
      split at listed
      · have inside := ih listed
        simp only [List.mem_append, List.mem_cons] at inside ⊢
        tauto
      · have inside := ih listed
        simp only [List.mem_append, List.mem_cons] at inside ⊢
        tauto

theorem mem_of_mem_eraseReps {items : List String} {item : String}
    (listed : item ∈ items.eraseReps) : item ∈ items := by
  cases items with
  | nil => exact listed
  | cons first rest => exact mem_of_mem_eraseRepsLoop listed

variable {name : String} {imports : List String} {body : Code}

/-- What a Java file defines, part by part. -/
theorem definedNames_file :
    ∃ sorted : List String, (∀ imported ∈ sorted, imported ∈ imports) ∧
      (file context name imports body).definedNames .java context.unit =
        Language.java.definedIn (Code.line s!"package {context.unit.package};") ++
          (Language.java.definedIn (Code.lines (sorted.map fun imported => s!"import {imported};")) ++
            Language.java.definedIn body) := by
  refine ⟨(imports.mergeSort fun left right => decide (left ≤ right)).eraseReps, ?_, ?_⟩
  · intro imported listed
    exact List.mem_mergeSort.mp (mem_of_mem_eraseReps listed)
  · simp only [file, List.append_assoc, GeneratedFile.definedNames_ofCode, Language.definedIn_append,
      Language.definedIn_blank, List.nil_append]

theorem definedIn_subset_file :
    Language.java.definedIn body ⊆ (file context name imports body).definedNames .java context.unit := by
  obtain ⟨sorted, -, parts⟩ := @definedNames_file context name imports body
  rw [parts]
  exact fun other inside => List.mem_append_right _ (List.mem_append_right _ inside)

theorem definedNames_file_of_oneLine (unit : context.unit.OneLine)
    (oneLine : ∀ imported ∈ imports, '\n' ∉ imported.toList) :
    (file context name imports body).definedNames .java context.unit =
      Language.java.definedIn body := by
  obtain ⟨sorted, imported, parts⟩ := @definedNames_file context name imports body
  have package : Unopened s!"package {context.unit.package};" := by
    refine .of_append ?_ (by decide)
    simp [toString, unit.2]
  rw [parts, package.definedIn, Language.definedIn_lines ?_, List.nil_append, List.nil_append]
  intro text listed
  obtain ⟨path, isPath, rfl⟩ := List.mem_map.mp listed
  refine (Unopened.of_append ?_ (by decide)).definedOn
  simp [toString, oneLine path (imported path isPath)]

theorem oneLine_imports (oneLine : OneLine context) :
    ∀ imported ∈ context.structs.flatMap fun record =>
      ["ohos.utils.Parcel", "ohos.utils.Sequenceable"] ++
        record.members.flatMap fun member => mentioned context member.type,
      '\n' ∉ imported.toList := by
  intro imported listed
  obtain ⟨record, isRecord, inRecord⟩ := List.mem_flatMap.mp listed
  rcases List.mem_append.mp inRecord with library | inMembers
  · rcases List.mem_pair.mp library with rfl | rfl <;> decide
  · obtain ⟨member, isMember, mentions⟩ := List.mem_flatMap.mp inMembers
    exact oneLine_mentionedWithin oneLine _ _ imported mentions

theorem definedOn_frame (oneLine : '\n' ∉ name.toList) :
    Language.java.definedOn (s!"public final class {name}" ++ " \x7b") = [] := by
  rw [definedOn_of_row (by simp [toString, oneLine]), definedName?_eq_none, Option.toList_none]
  have starts : ∃ more, words (ofLine (s!"public final class {name}" ++ " \x7b").toList) =
      "public".toList :: "final".toList :: more := by
    simp +decide [ofLine, toString, words]
  obtain ⟨more, starts⟩ := starts
  rw [starts]
  simp [Language.definers, List.cons_prefix_cons]

theorem definedIn_hidden (oneLine : '\n' ∉ name.toList) :
    Language.java.definedIn (Code.braced s!"private {name}()" []) = [] := by
  refine (Language.definedIn_bracedWith_of_quiet rfl (by decide)).trans ?_
  apply definedOn_of_first (by decide : IsRun "private") (by decide : separates ' ' = true)
  · simp [toString, oneLine]
  · simp [toString]
    rfl
  · decide

/-- The names of the types that the file of a unit defines: those of the types of the build that Java
has. -/
theorem definedNames_customTypes (named : ∀ node ∈ context.customTypes, node.WordNamed)
    {files : List GeneratedFile} (rendered : customTypes context = .ok files) :
    ∃ file, files = [file] ∧ file.name = context.name ++ ".java" ∧
      (∀ name ∈ context.customTypes.filterMap Language.java.definesAs?,
        name.toList ∈ file.definedNames .java context.unit) ∧
      (OneLine context → context.unit.OneLine → file.definedNames .java context.unit =
        (context.customTypes.filterMap Language.java.definesAs?).map String.toList) := by
  obtain ⟨classes, areClasses, rendered⟩ := Emit.bind_eq_ok.mp rendered
  obtain ⟨parts, areParts, areClasses⟩ := Emit.bind_eq_ok.mp areClasses
  cases areClasses
  cases rendered
  refine ⟨_, rfl, rfl, fun name listed => ?_, fun oneLine unit => ?_⟩
  · obtain ⟨node, isNode, defines⟩ := List.mem_filterMap.mp listed
    obtain ⟨code, isCode, rendersTo⟩ := Emit.exists_of_mapM areParts isNode
    have inside := mem_definedIn_nestedClass (named node isNode) rendersTo defines
    apply definedIn_subset_file
    rw [Code.braced, Language.definedIn_bracedWith, Language.definedIn_append,
      Language.definedIn_flatten]
    have inParts := List.mem_flatMap_of_mem isCode inside
    simp [inParts]
  · have classes : parts.flatMap Language.java.definedIn =
        (context.customTypes.filterMap Language.java.definesAs?).map String.toList :=
      Language.definedIn_definitions areParts fun node listed code rendersTo =>
        definedIn_nestedClass oneLine (named node listed) rendersTo
    have isName : '\n' ∉ context.name.toList := unit.1
    have limit : Language.java.definedIn
        (Code.line "private static final int HDI_BUFF_MAX_SIZE = 1024 * 200;") = [] := by decide
    have closing : Language.java.definedOn ("\x7d" ++ "") = [] := by decide
    rw [definedNames_file_of_oneLine unit (oneLine_imports oneLine), Code.braced,
      Language.definedIn_bracedWith, definedOn_frame isName, closing]
    simp only [Language.definedIn_append, Language.definedIn_flatten, Language.definedIn_blank, limit,
      definedIn_hidden isName, classes, List.nil_append, List.append_nil]

end Files

end JavaCode

end DriverIdl
