import DriverIdl.Proofs.Emit.Java
import DriverIdl.Proofs.Program.Containers
import DriverIdl.Proofs.Program.Spelling
import Mathlib.Data.List.TakeWhile

/-!
# Arrays in Java

The expression for a new array is made of the spelling of its element: the size goes in front of the
first bracket, and what stands between the first angle and that bracket is left out.  Brackets stand
in a spelling where the type holds arrays.  Those of the array type itself stand behind everything
else, but the type arguments of a list or map may hold arrays too, and then the first bracket is one
of theirs.
-/

namespace DriverIdl

open Relation

/-- The class that Java nests a declared type in. -/
def TypeNode.outerClass? : TypeNode → Option String
  | .enum declared => some declared.unit
  | .struct record => some record.unit
  | _ => none

namespace JavaCode

/-- A name without brackets and type arguments. -/
def IsPlain (name : String) : Prop := '[' ∉ name.toList ∧ '<' ∉ name.toList

/-- No type is nested in a class whose name is not plain. -/
def PlainClasses (context : EmitContext) : Prop :=
  ∀ type unit, (context.types.node type).outerClass? = some unit → IsPlain unit

/-- The name of a type without its type arguments. -/
def erasedName (context : EmitContext) (type : TypeId) : String :=
  match context.types.node type with
  | .primitive primitive => primitiveType false primitive
  | .enum declared => nestedName context declared.unit declared.name
  | .struct record => nestedName context record.unit record.name
  | .list _ => "List"
  | .map _ _ => "HashMap"
  | .interface declared => declared.name
  | .sequenceable declared => declared.name
  | .array _ | .union _ | .queue _ => ""

/-- One pair of brackets for each dimension. -/
def brackets : Nat → String
  | 0 => ""
  | dimensions + 1 => "[]" ++ brackets dimensions

/-- A new array of elements that are themselves arrays of some dimensions over a type. -/
def allocation (context : EmitContext) (innermost : TypeId) (size : String) (dimensions : Nat) :
    String :=
  s!"new {erasedName context innermost}[{size}]{brackets dimensions}"

/-- A text from its first bracket on. -/
def fromBracket (text : String) : String := String.ofList (text.toList.dropWhile (· != '['))

section Texts

variable {name first second : String}

theorem IsPlain.append (isFirst : IsPlain first) (isSecond : IsPlain second) :
    IsPlain (first ++ second) := by
  simp only [IsPlain, String.toList_append, List.mem_append, not_or]
  exact ⟨⟨isFirst.1, isSecond.1⟩, isFirst.2, isSecond.2⟩

theorem isPlain_of_isWord (isWord : Text.IsWord name) : IsPlain name :=
  ⟨fun inside => absurd (isWord.2 _ inside) (by decide),
    fun inside => absurd (isWord.2 _ inside) (by decide)⟩

theorem isPlain_primitiveType (boxed : Bool) (primitive : Primitive) :
    IsPlain (primitiveType boxed primitive) := by
  cases primitive <;> cases boxed <;> exact ⟨by decide, by decide⟩

theorem brackets_append (dimensions : Nat) :
    brackets dimensions ++ "[]" = "[]" ++ brackets dimensions := by
  induction dimensions with
  | zero => rfl
  | succ dimensions ih => rw [brackets, String.append_assoc, ih]

theorem dropWhile_brackets (dimensions : Nat) :
    (brackets dimensions).toList.dropWhile (· != '[') = (brackets dimensions).toList := by
  cases dimensions with
  | zero => rfl
  | succ dimensions => rw [brackets, String.toList_append]; rfl

theorem takeWhile_brackets (dimensions : Nat) :
    (brackets dimensions).toList.takeWhile (· != '[') = [] := by
  cases dimensions with
  | zero => rfl
  | succ dimensions => rw [brackets, String.toList_append]; rfl

theorem fromBracket_eq_empty_iff (text : String) : fromBracket text = "" ↔ '[' ∉ text.toList := by
  have empty : fromBracket text = "" ↔ text.toList.dropWhile (· != '[') = [] := by
    rw [fromBracket, ← String.toList_inj, String.toList_ofList, String.toList_empty]
  have each : (∀ letter ∈ text.toList, (letter != '[') = true) ↔ '[' ∉ text.toList :=
    ⟨fun all inside => bne_iff_ne.mp (all _ inside) rfl,
      fun absent letter inside => bne_iff_ne.mpr fun same => absent (same ▸ inside)⟩
  rw [empty, List.dropWhile_eq_nil_iff, each]

/-- The size stands behind the name, and type arguments stay from their first bracket on. -/
theorem newArray_append (isPlain : IsPlain name) {arguments : String}
    (opens : arguments.toList.takeWhile (· != '<') = []) (dimensions : Nat) (size : String) :
    newArray (name ++ arguments ++ brackets dimensions) size =
      s!"new {name}[{size}]{fromBracket arguments}{brackets dimensions}" := by
  have noBracket : ∀ letter ∈ name.toList, (letter != '[') = true :=
    fun letter inside => bne_iff_ne.mpr fun same => isPlain.1 (same ▸ inside)
  have noAngle : ∀ letter ∈ name.toList, (letter != '<') = true :=
    fun letter inside => bne_iff_ne.mpr fun same => isPlain.2 (same ▸ inside)
  have text : (name ++ arguments ++ brackets dimensions).toList =
      name.toList ++ (arguments.toList ++ (brackets dimensions).toList) := by
    simp only [String.toList_append, List.append_assoc]
  have raw : ((name.toList ++ (arguments.toList ++ (brackets dimensions).toList)).takeWhile
      (· != '[')).takeWhile (· != '<') = name.toList := by
    rw [List.takeWhile_append_of_pos noBracket, List.takeWhile_append_of_pos noAngle]
    cases spelled : arguments.toList with
    | nil => rw [List.nil_append, takeWhile_brackets, List.takeWhile_nil, List.append_nil]
    | cons letter rest =>
        have isAngle : letter = '<' := by
          by_contra other
          simp [spelled, other] at opens
        simp [isAngle]
  have tail : (name.toList ++ (arguments.toList ++ (brackets dimensions).toList)).dropWhile
      (· != '[') = (fromBracket arguments).toList ++ (brackets dimensions).toList := by
    rw [List.dropWhile_append_of_pos noBracket, List.dropWhile_append, fromBracket,
      String.toList_ofList]
    split
    · rename_i isEmpty
      rw [List.isEmpty_iff.mp isEmpty, dropWhile_brackets, List.nil_append]
    · rfl
  have joined : String.ofList ((fromBracket arguments).toList ++ (brackets dimensions).toList) =
      fromBracket arguments ++ brackets dimensions := by
    rw [← String.toList_append, String.ofList_toList]
  rw [newArray, text, raw, tail, String.ofList_toList, joined]
  simp only [toString, String.append_assoc]

end Texts

section Spellings

variable {context : EmitContext} {type : TypeId}

theorem nestedName_isPlain {unit name : String} (unitPlain : IsPlain unit)
    (isWord : Text.IsWord name) : IsPlain (nestedName context unit name) := by
  have namePlain := isPlain_of_isWord isWord
  unfold nestedName
  split
  · exact namePlain
  · exact (unitPlain.append ⟨by decide, by decide⟩).append namePlain

/-- A type that holds nothing is spelled with a plain name. -/
theorem isPlain_of_elements (spelled : context.types.Spelled) (classes : PlainClasses context)
    (noElements : (context.types.node type).elements = [])
    {levels : Nat} {boxed : Bool} {text : String}
    (spells : typeWithin context (levels + 1) boxed type = .ok text) : IsPlain text := by
  have words := spelled type
  have plainClass := classes type
  rw [typeWithin] at spells
  cases node : context.types.node type with
  | array _ | list _ | map _ _ | queue _ => simp [node, TypeNode.elements] at noElements
  | union record =>
      rw [node] at spells
      cases spells
  | primitive primitive =>
      rw [node] at spells
      cases spells
      exact isPlain_primitiveType boxed primitive
  | enum declared | struct declared =>
      rw [node] at spells words plainClass
      cases spells
      exact nestedName_isPlain (plainClass _ rfl) (words _ (by simp [TypeNode.names]))
  | interface declared | sequenceable declared =>
      rw [node] at spells words
      cases spells
      exact isPlain_of_isWord (words _ (by simp [TypeNode.names]))

section Containers

variable {levels : Nat} {boxed : Bool} {text : String}

theorem typeWithin_array {element : TypeId} (node : context.types.node type = .array element)
    (spells : typeWithin context (levels + 1) boxed type = .ok text) :
    ∃ inner, typeWithin context levels false element = .ok inner ∧ text = inner ++ "[]" := by
  rw [typeWithin, node] at spells
  obtain ⟨inner, spelled, made⟩ := Emit.bind_eq_ok.mp spells
  cases made
  exact ⟨inner, spelled, rfl⟩

theorem typeWithin_list {element : TypeId} (node : context.types.node type = .list element)
    (spells : typeWithin context (levels + 1) boxed type = .ok text) :
    ∃ inner, typeWithin context levels true element = .ok inner ∧ text = "List<" ++ inner ++ ">" := by
  rw [typeWithin, node] at spells
  obtain ⟨inner, spelled, made⟩ := Emit.bind_eq_ok.mp spells
  cases made
  exact ⟨inner, spelled, rfl⟩

theorem typeWithin_map {key value : TypeId} (node : context.types.node type = .map key value)
    (spells : typeWithin context (levels + 1) boxed type = .ok text) :
    ∃ keyText valueText, typeWithin context levels true key = .ok keyText ∧
      typeWithin context levels true value = .ok valueText ∧
      text = "HashMap<" ++ keyText ++ ", " ++ valueText ++ ">" := by
  rw [typeWithin, node] at spells
  obtain ⟨keyText, spelledKey, made⟩ := Emit.bind_eq_ok.mp spells
  obtain ⟨valueText, spelledValue, made⟩ := Emit.bind_eq_ok.mp made
  cases made
  exact ⟨keyText, valueText, spelledKey, spelledValue, rfl⟩

end Containers

/-- Enough levels for a type: one, and more than the number of a type that holds elements. -/
structure Enough (context : EmitContext) (levels : Nat) (type : TypeId) : Prop where
  pos : 0 < levels
  container : ∀ element, context.types.HoldsElement type element → type < levels

theorem enough_size (context : EmitContext) (type : TypeId) :
    Enough context (context.types.size + 1) type where
  pos := Nat.succ_pos _
  container _ holds := Nat.lt_succ_of_lt holds.outer_lt_size

theorem Enough.element (elementsFirst : context.types.ElementsFirst) {levels : Nat} {element : TypeId}
    (enough : Enough context (levels + 1) type) (holds : context.types.HoldsElement type element) :
    Enough context levels element := by
  have smaller : element < type := elementsFirst type element holds
  have bounded : type < levels + 1 := enough.container element holds
  have below : element < levels := Nat.lt_of_lt_of_le smaller (Nat.le_of_lt_succ bounded)
  exact ⟨Nat.zero_lt_of_lt below, fun _ _ => below⟩

/-- The spelling of a type has a bracket exactly if the type holds an array. -/
theorem bracket_mem_iff (spelled : context.types.Spelled) (classes : PlainClasses context)
    (elementsFirst : context.types.ElementsFirst) (levels : Nat) :
    ∀ (boxed : Bool) (type : TypeId) (text : String), Enough context levels type →
      typeWithin context levels boxed type = .ok text →
      ('[' ∈ text.toList ↔ context.types.HoldsArray type) := by
  induction levels with
  | zero => exact fun _ _ _ impossible => absurd impossible.pos (Nat.lt_irrefl 0)
  | succ levels ih =>
      intro boxed type text enough spells
      have inner (element : TypeId) (holds : element ∈ (context.types.node type).elements) :
          Enough context levels element :=
        enough.element elementsFirst holds
      cases node : context.types.node type with
      | array element =>
          obtain ⟨elementText, -, rfl⟩ := typeWithin_array node spells
          exact iff_of_true (by simp) (.of_array node)
      | list element =>
          obtain ⟨elementText, spelledElement, rfl⟩ := typeWithin_list node spells
          have within := ih _ _ _ (inner element (by simp [node, TypeNode.elements])) spelledElement
          rw [TypeArena.holdsArray_iff_of_ne (by simp [node]), node]
          simp [TypeNode.elements, within]
      | map key value =>
          obtain ⟨keyText, valueText, spelledKey, spelledValue, rfl⟩ := typeWithin_map node spells
          have withinKey := ih _ _ _ (inner key (by simp [node, TypeNode.elements])) spelledKey
          have withinValue := ih _ _ _ (inner value (by simp [node, TypeNode.elements])) spelledValue
          rw [TypeArena.holdsArray_iff_of_ne (by simp [node]), node]
          simp [TypeNode.elements, withinKey, withinValue]
      | queue element =>
          rw [typeWithin, node] at spells
          cases spells
      | _ =>
          have noElements : (context.types.node type).elements = [] := by rw [node]; rfl
          have isPlain := isPlain_of_elements spelled classes noElements spells
          rw [TypeArena.holdsArray_iff_of_ne (by simp [node]), noElements]
          exact iff_of_false isPlain.1 (by simp)

/-- A type is spelled as its innermost type without arguments, the arguments, and brackets. -/
theorem typeWithin_eq (spelled : context.types.Spelled) (classes : PlainClasses context)
    (elementsFirst : context.types.ElementsFirst) (levels : Nat) :
    ∀ (type : TypeId) (text : String), Enough context levels type →
      typeWithin context levels false type = .ok text →
      ∃ dimensions innermost arguments,
        context.types.StacksArrays dimensions type innermost ∧
        IsPlain (erasedName context innermost) ∧
        text = erasedName context innermost ++ arguments ++ brackets dimensions ∧
        arguments.toList.takeWhile (· != '<') = [] ∧
        ('[' ∈ arguments.toList ↔ context.types.HoldsArray innermost) := by
  induction levels with
  | zero => exact fun _ _ impossible => absurd impossible.pos (Nat.lt_irrefl 0)
  | succ levels ih =>
      intro type text enough spells
      have hasBracket := bracket_mem_iff spelled classes elementsFirst _ _ _ _ enough spells
      cases node : context.types.node type with
      | array element =>
          obtain ⟨elementText, spelledElement, rfl⟩ := typeWithin_array node spells
          have holds : context.types.HoldsElement type element := by
            rw [TypeArena.HoldsElement, node]
            exact List.mem_singleton_self element
          obtain ⟨dimensions, innermost, arguments, stacked, isPlain, rfl, opens, bracket⟩ :=
            ih element elementText (enough.element elementsFirst holds) spelledElement
          refine ⟨dimensions + 1, innermost, arguments, .array node stacked, isPlain, ?_, opens, bracket⟩
          rw [String.append_assoc, brackets_append, brackets]
      | list element =>
          obtain ⟨elementText, spelledElement, rfl⟩ := typeWithin_list node spells
          have erased : erasedName context type = "List" := by rw [erasedName, node]
          refine ⟨0, type, "<" ++ elementText ++ ">", .innermost (by simp [node]), ?_, ?_, ?_, ?_⟩
          · rw [erased]
            exact ⟨by decide, by decide⟩
          · rw [erased, brackets]
            simp only [← String.append_assoc, String.append_empty]
            rfl
          · simp
          · rw [← hasBracket]
            simp
      | map key value =>
          obtain ⟨keyText, valueText, -, -, rfl⟩ := typeWithin_map node spells
          have erased : erasedName context type = "HashMap" := by rw [erasedName, node]
          refine ⟨0, type, "<" ++ keyText ++ ", " ++ valueText ++ ">", .innermost (by simp [node]),
            ?_, ?_, ?_, ?_⟩
          · rw [erased]
            exact ⟨by decide, by decide⟩
          · rw [erased, brackets]
            simp only [← String.append_assoc, String.append_empty]
            rfl
          · simp
          · rw [← hasBracket]
            simp
      | union _ | queue _ =>
          rw [typeWithin, node] at spells
          cases spells
      | _ =>
          have noElements : (context.types.node type).elements = [] := by rw [node]; rfl
          have isPlain := isPlain_of_elements spelled classes noElements spells
          have erased : erasedName context type = text := by
            rw [typeWithin, node] at spells
            cases spells
            rw [erasedName, node]
          refine ⟨0, type, "", .innermost (by simp [node]), erased ▸ isPlain, ?_, rfl, ?_⟩
          · rw [erased, brackets, String.append_empty, String.append_empty]
          · rw [← hasBracket]
            exact iff_of_false (by simp) isPlain.1

end Spellings

/-- The expression for a new array has the size behind the name of the innermost type and a pair of
brackets for each dimension exactly if the type arguments hold no array.  Otherwise they stand
between the size and these brackets, from their first bracket on. -/
theorem newArray_matches_type_iff {context : EmitContext} (reachable : context.program.Reachable)
    (classes : PlainClasses context) {element : TypeId} {spelled : String}
    (spells : typeName context element = .ok spelled) (size : String) :
    ∃ dimensions innermost arguments,
      context.types.StacksArrays dimensions element innermost ∧
      spelled = erasedName context innermost ++ arguments ++ brackets dimensions ∧
      newArray spelled size =
        s!"new {erasedName context innermost}[{size}]{fromBracket arguments}{brackets dimensions}" ∧
      (newArray spelled size = allocation context innermost size dimensions ↔
        ¬context.types.HoldsArray innermost) := by
  obtain ⟨dimensions, innermost, arguments, stacked, isPlain, rfl, opens, bracket⟩ :=
    typeWithin_eq reachable.spelled.types classes reachable.elementsFirst _ _ _
      (enough_size context element) spells
  have expression := newArray_append isPlain opens dimensions size
  refine ⟨dimensions, innermost, arguments, stacked, rfl, expression, ?_⟩
  have without : fromBracket arguments = "" ↔ ¬context.types.HoldsArray innermost := by
    rw [fromBracket_eq_empty_iff, bracket]
  rw [expression, ← without, allocation, ← String.toList_inj, ← String.toList_inj]
  simp [toString]

end JavaCode

section Examples

open JavaCode Program

/-- A unit with a struct that has an array of some elements. -/
def javaArrayOf (element : String) : EmitContext where
  options := toJava
  program := (arrayOf toJava element).program
  unit := (arrayOf toJava element).program.units[0]?.getD default

instance (name : String) : Decidable (IsPlain name) :=
  inferInstanceAs (Decidable (_ ∧ _))

theorem JavaCode.plainClasses_of_nodes {context : EmitContext}
    (each : ∀ node ∈ context.types.nodes.toList, ∀ unit ∈ node.outerClass?, IsPlain unit) :
    PlainClasses context := by
  intro type unit nested
  rcases Nat.lt_or_ge type context.types.size with inside | outside
  · have present := Array.mem_of_getElem? (TypeArena.getElem?_of_lt_size inside)
    exact each _ (Array.mem_toList_iff.mpr present) unit nested
  · rw [TypeArena.node_of_size_le outside] at nested
    cases nested

theorem arrayOfMaps_spec :
    typeName (javaArrayOf "Map<String, int>[]") 16 = .ok "HashMap<String, Integer>[]" ∧
      (javaArrayOf "Map<String, int>[]").types.node 16 = .array 15 ∧
      (javaArrayOf "Map<String, int>[]").types.node 15 =
        .map Primitive.string.id Primitive.int.id ∧
      (∀ element ∈ [Primitive.string.id, Primitive.int.id],
        ((javaArrayOf "Map<String, int>[]").types.node element).elements = [] ∧
        ((javaArrayOf "Map<String, int>[]").types.node element).kindName ≠ "array") ∧
      ∀ node ∈ (javaArrayOf "Map<String, int>[]").types.nodes.toList,
        ∀ unit ∈ node.outerClass?, IsPlain unit := by
  decide +kernel

/-- An array of arrays of maps gets its size in front of the brackets of its elements. -/
theorem arrayOfMaps_allocated :
    (javaArrayOf "Map<String, int>[]").types.StacksArrays 1 16 15 ∧
      newArray "HashMap<String, Integer>[]" "n" =
        allocation (javaArrayOf "Map<String, int>[]") 15 "n" 1 := by
  obtain ⟨spells, isArray, isMap, leaves, plain⟩ := arrayOfMaps_spec
  have stacked : (javaArrayOf "Map<String, int>[]").types.StacksArrays 1 16 15 :=
    .array isArray (.innermost (by simp [isMap]))
  have noArray : ¬(javaArrayOf "Map<String, int>[]").types.HoldsArray 15 := by
    rw [TypeArena.holdsArray_iff_of_ne (by simp [isMap]), isMap]
    rintro ⟨element, listed, holds⟩
    obtain ⟨noElements, notArray⟩ := leaves element listed
    rw [TypeArena.holdsArray_iff_of_ne (by rintro inner node; simp [node, TypeNode.kindName] at notArray),
      noElements] at holds
    simp at holds
  obtain ⟨dimensions, innermost, -, stackedToo, -, -, matches_iff⟩ :=
    newArray_matches_type_iff (.parse _ _ _ _ .empty) (plainClasses_of_nodes plain) spells "n"
  obtain ⟨rfl, rfl⟩ := stackedToo.unique stacked
  exact ⟨stacked, matches_iff.mpr noArray⟩

theorem arrayOfLists_spec :
    LeavesArray (arrayOf toJava "List<int[]>") 17 16 ∧
      typeName (javaArrayOf "List<int[]>") 16 = .ok "List<int[]>" ∧
      (javaArrayOf "List<int[]>").types.node 16 = .list 15 ∧
      newArray "List<int[]>" "n" = "new List[n][]>" ∧
      allocation (javaArrayOf "List<int[]>") 16 "n" 0 = "new List[n]" := by
  decide +kernel

/-- An array of lists of arrays gets its size in front of the end of the type arguments. -/
theorem arrayOfLists_misallocated :
    LeavesArray (arrayOf toJava "List<int[]>") 17 16 ∧
      typeName (javaArrayOf "List<int[]>") 16 = .ok "List<int[]>" ∧
      newArray "List<int[]>" "n" = "new List[n][]>" ∧
      ∀ dimensions innermost,
        (javaArrayOf "List<int[]>").types.StacksArrays dimensions 16 innermost →
        newArray "List<int[]>" "n" ≠
          allocation (javaArrayOf "List<int[]>") innermost "n" dimensions := by
  obtain ⟨leaves, spells, isList, expression, expected⟩ := arrayOfLists_spec
  refine ⟨leaves, spells, expression, fun dimensions innermost stacked => ?_⟩
  obtain ⟨rfl, rfl⟩ := stacked.unique (.innermost (by simp [isList]))
  rw [expression, expected]
  decide

end Examples

end DriverIdl
