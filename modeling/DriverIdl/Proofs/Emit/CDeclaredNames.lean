import DriverIdl.Proofs.Emit.MethodNames
import DriverIdl.Proofs.Emit.Mirroring
import DriverIdl.Proofs.Emit.Visibility

/-!
# Names that C declarations declare

In C, arrays, lists and string results are a pointer and a length beside it, so some parameters and
members declare two names: their own, and that with `Len` behind it.  Every prototype declares `self`
besides.  The parser keeps the names of the source apart and nothing compares the derived ones, so the
names of a prototype or of a struct are distinct exactly if none of the source is a derived one.
-/

namespace DriverIdl

/-- The names of its members are among those that a struct or union brings. -/
theorem TypeNode.mem_names_of_member {node : TypeNode} {record : RecordType} {member : Member}
    (isRecord : node.record? = some record) (listed : member ∈ record.members) :
    member.name ∈ node.names := by
  cases node with
  | struct found | union found =>
      obtain rfl : found = record := Option.some.inj isRecord
      exact List.mem_cons_of_mem _ (List.mem_map_of_mem listed)
  | _ => cases isRecord

section Derived

variable {α : Type} {items : List α} {name : α → String} {withLength : α → Bool}

/-- The name of a length that stands beside a pointer. -/
def lengthName (name : String) : String := name ++ "Len"

/-- The names that an item declares: its own, and that of its length. -/
def namesWithLength (name : α → String) (withLength : α → Bool) (item : α) : List String :=
  if withLength item then [name item, lengthName (name item)] else [name item]

theorem lengthName_injective : Function.Injective lengthName := by
  intro first second same
  have letters := congrArg String.toList same
  rw [lengthName, lengthName, String.toList_append, String.toList_append] at letters
  exact String.toList_inj.mp (List.append_cancel_right letters)

/-- The names of items, and behind them those of their lengths. -/
theorem flatMap_namesWithLength_perm :
    (items.flatMap (namesWithLength name withLength)).Perm
      (items.map name ++ (items.filter withLength).map (lengthName ∘ name)) := by
  induction items with
  | nil => exact .nil
  | cons item rest ih =>
      rw [List.flatMap_cons, namesWithLength, List.map_cons]
      by_cases has : withLength item = true
      · rw [if_pos has, List.filter_cons_of_pos has, List.map_cons]
        exact ((ih.cons _).trans List.perm_middle.symm).cons _
      · rw [if_neg has, List.filter_cons_of_neg has]
        exact ih.cons _

/-- Names and names of lengths are distinct exactly if no name is one of a length. -/
theorem nodup_namesWithLength_iff (distinct : (items.map name).Nodup) :
    (items.flatMap (namesWithLength name withLength)).Nodup ↔
      ∀ item ∈ items, withLength item = true → ∀ other ∈ items, name other ≠ lengthName (name item) := by
  have lengths : ((items.filter withLength).map (lengthName ∘ name)).Nodup := by
    rw [← List.map_map]
    exact ((List.filter_sublist.map name).nodup distinct).map lengthName_injective
  rw [flatMap_namesWithLength_perm.nodup_iff, List.nodup_append]
  constructor
  · rintro ⟨-, -, apart⟩ item listed has other isOther
    exact apart _ (List.mem_map_of_mem isOther) _
      (List.mem_map_of_mem (List.mem_filter.mpr ⟨listed, has⟩))
  · intro apart
    refine ⟨distinct, lengths, fun first isFirst second isSecond => ?_⟩
    obtain ⟨other, isOther, rfl⟩ := List.mem_map.mp isFirst
    obtain ⟨item, listed, rfl⟩ := List.mem_map.mp isSecond
    obtain ⟨listed, has⟩ := List.mem_filter.mp listed
    exact apart item listed has other isOther

/-- No name of a length is `self`, so a name beside the others is one of the source. -/
theorem self_mem_namesWithLength_iff :
    "self" ∈ items.flatMap (namesWithLength name withLength) ↔ ∃ item ∈ items, name item = "self" := by
  rw [flatMap_namesWithLength_perm.mem_iff, List.mem_append]
  constructor
  · rintro (isName | isLength)
    · exact List.mem_map.mp isName
    · obtain ⟨item, -, same⟩ := List.mem_map.mp isLength
      have letters := congrArg (fun text : String => text.toList.getLast?) same
      simp [lengthName] at letters
  · rintro ⟨item, listed, same⟩
    exact .inl (same ▸ List.mem_map_of_mem listed)

end Derived

/-- The signature of a function stands in front of its body. -/
theorem Code.infix_function (signature : String) (body : Code) :
    Code.line signature <:+: Code.function [signature] body :=
  ⟨[], _, rfl⟩

namespace CCode

/-- Whether a parameter has a length beside it. -/
def parameterHasLength (types : TypeArena) (parameter : Parameter) : Bool :=
  match types.node parameter.type with
  | .primitive .string => parameter.isOut
  | .array _ | .list _ => true
  | _ => false

/-- Whether a member has a length beside it. -/
def memberHasLength (types : TypeArena) (member : Member) : Bool :=
  match types.node member.type with
  | .array _ | .list _ => true
  | _ => false

section Declarators

variable {types : TypeArena} {before word behind expression : String}

/-- A declarator ends with the name that it declares, and with a mark in a struct. -/
theorem lastWord_eq (before : List Char) (separator : Char) (behind : List Char)
    (isWord : Text.IsWord word)
    (separates : isWordChar separator = false)
    (apart : ∀ character ∈ behind, isWordChar character = false)
    (spelled : expression.toList = before ++ separator :: (word.toList ++ behind)) :
    lastWord expression = word := by
  have reversed : (expression.toList.reverse.dropWhile fun character => !isWordChar character) =
      word.toList.reverse ++ separator :: before.reverse := by
    rw [spelled, List.reverse_append, List.reverse_cons, List.reverse_append, List.append_assoc,
      List.append_assoc, List.dropWhile_append_of_pos (by simpa using apart)]
    obtain ⟨last, front, ends⟩ := List.exists_cons_of_ne_nil (mt List.reverse_eq_nil_iff.mp isWord.1)
    have isLast : isWordChar last = true := isWord.2 last (by
      rw [← List.mem_reverse, ends]
      exact List.mem_cons_self)
    rw [ends, List.cons_append, List.dropWhile_cons_of_neg (by simp [isLast])]
    simp
  have taken : (expression.toList.reverse.dropWhile fun character => !isWordChar character).takeWhile
      isWordChar = word.toList.reverse := by
    rw [reversed, List.takeWhile_append_of_pos fun character inside =>
      isWord.2 character (List.mem_reverse.mp inside), List.takeWhile_cons_of_neg (by simp [separates]),
      List.append_nil]
  rw [lastWord, taken, List.reverse_reverse, if_neg (by simpa using isWord.1), String.ofList_toList]

theorem isWord_lengthName (isWord : Text.IsWord word) : Text.IsWord (lengthName word) := by
  refine ⟨by simp [lengthName], fun character inside => ?_⟩
  rw [lengthName, String.toList_append, List.mem_append] at inside
  exact inside.elim (isWord.2 character) fun ending =>
    List.all_eq_true.mp (by decide : "Len".toList.all isWordChar = true) character ending

theorem getLast?_append_blank (front : String) {type : String} (ends : type.toList.getLast? = some ' ') :
    (front ++ type).toList.getLast? = some ' ' := by
  rw [String.toList_append, List.getLast?_append, ends]
  rfl

/-- What stands in front of the name ends with a blank. -/
theorem lastWord_append {front : String} (isWord : Text.IsWord word)
    (ends : front.toList.getLast? = some ' ') : lastWord (front ++ word) = word := by
  obtain ⟨before, spelled⟩ := List.getLast?_eq_some_iff.mp ends
  exact lastWord_eq before ' ' [] isWord (by decide) (by simp)
    (by rw [String.toList_append, spelled, List.append_assoc]; simp)

theorem lastWord_field {front : String} (isWord : Text.IsWord word)
    (ends : front.toList.getLast? = some ' ') : lastWord (front ++ word ++ ";") = word := by
  obtain ⟨before, spelled⟩ := List.getLast?_eq_some_iff.mp ends
  exact lastWord_eq before ' ' [';'] isWord (by decide) (List.forall_mem_singleton.mpr (by decide))
    (by rw [String.toList_append, String.toList_append, spelled, List.append_assoc]; simp)

end Declarators

section Declared

variable {types : TypeArena} {parameter : Parameter} {member : Member} {declarators : List String}

theorem parameterHasLength_eq_false (notArray : ∀ element, types.node parameter.type ≠ .array element)
    (notList : ∀ element, types.node parameter.type ≠ .list element)
    (notResult : types.node parameter.type = .primitive .string → parameter.direction = .inward) :
    parameterHasLength types parameter = false := by
  unfold parameterHasLength
  split
  · rename_i isString
    simp [Parameter.isOut, notResult isString]
  · rename_i element isArray
    exact absurd isArray (notArray element)
  · rename_i element isList
    exact absurd isList (notList element)
  · rfl

/-- A parameter declares its name, and that of its length if it has one. -/
theorem declared_parameter (isWord : Text.IsWord parameter.name)
    (rendered : parameterDeclarators types parameter = .ok declarators) :
    declarators.map lastWord = namesWithLength Parameter.name (parameterHasLength types) parameter := by
  have single {front : String} (ends : front.toList.getLast? = some ' ')
      (without : parameterHasLength types parameter = false) :
      [front ++ parameter.name].map lastWord =
        namesWithLength Parameter.name (parameterHasLength types) parameter := by
    rw [namesWithLength, if_neg (by simp [without]), List.map_singleton, lastWord_append isWord ends]
  have double {front beside : String} (ends : front.toList.getLast? = some ' ')
      (endsToo : beside.toList.getLast? = some ' ') (has : parameterHasLength types parameter = true) :
      [front ++ parameter.name, beside ++ parameter.name ++ "Len"].map lastWord =
        namesWithLength Parameter.name (parameterHasLength types) parameter := by
    rw [namesWithLength, if_pos has, List.map_cons, List.map_singleton, lastWord_append isWord ends,
      String.append_assoc, ← lengthName, lastWord_append (isWord_lengthName isWord) endsToo]
  unfold parameterDeclarators at rendered
  simp only [] at rendered
  split at rendered
  case h_1 direction node =>
      cases rendered
      exact single (by decide) (by simp [parameterHasLength, node, Parameter.isOut, direction])
  case h_2 direction node | h_3 direction node =>
      obtain ⟨type, -, rendered⟩ := Emit.bind_eq_ok.mp rendered
      cases rendered
      exact single (getLast?_append_blank _ (by decide)) (by simp [parameterHasLength, node])
  case h_4 direction node | h_5 direction node =>
      obtain ⟨type, -, rendered⟩ := Emit.bind_eq_ok.mp rendered
      cases rendered
      exact double (getLast?_append_blank _ (by decide)) (by decide) (by simp [parameterHasLength, node])
  case h_6 direction notString notStruct notUnion notArray notList =>
      obtain ⟨type, -, rendered⟩ := Emit.bind_eq_ok.mp rendered
      cases rendered
      exact single (getLast?_append_blank _ (by decide))
        (parameterHasLength_eq_false notArray notList fun _ => direction)
  case h_7 direction node =>
      cases rendered
      exact double (by decide) (by decide)
        (by simp [parameterHasLength, node, Parameter.isOut, direction])
  case h_8 direction node | h_9 direction node =>
      obtain ⟨type, -, rendered⟩ := Emit.bind_eq_ok.mp rendered
      cases rendered
      exact double (getLast?_append_blank _ (by decide)) (by decide) (by simp [parameterHasLength, node])
  case h_10 direction notString notArray notList =>
      obtain ⟨type, -, rendered⟩ := Emit.bind_eq_ok.mp rendered
      cases rendered
      exact single (getLast?_append_blank _ (by decide))
        (parameterHasLength_eq_false notArray notList fun isString => absurd isString notString)

/-- A member declares its name, and that of its length if it has one. -/
theorem declared_member (isWord : Text.IsWord member.name)
    (rendered : memberDeclarations types member = .ok declarators) :
    declarators.map lastWord = namesWithLength Member.name (memberHasLength types) member := by
  unfold memberDeclarations at rendered
  simp only [] at rendered
  split at rendered
  case h_1 node | h_2 node =>
      obtain ⟨type, -, rendered⟩ := Emit.bind_eq_ok.mp rendered
      cases rendered
      have has : memberHasLength types member = true := by simp [memberHasLength, node]
      have value : lastWord (type ++ "* " ++ member.name ++ ";") = member.name :=
        lastWord_field isWord (getLast?_append_blank _ (by decide))
      have length : lastWord ("uint32_t " ++ member.name ++ "Len;") = lengthName member.name := by
        have spelled : "uint32_t " ++ member.name ++ "Len;" =
            "uint32_t " ++ lengthName member.name ++ ";" := by
          apply String.toList_injective
          simp [lengthName]
        rw [spelled, lastWord_field (isWord_lengthName isWord) (by decide)]
      rw [namesWithLength, if_pos has]
      exact congrArg₂ (fun first second => [first, second]) value length
  case h_3 notArray notList =>
      obtain ⟨type, -, rendered⟩ := Emit.bind_eq_ok.mp rendered
      cases rendered
      have without : memberHasLength types member = false := by
        unfold memberHasLength
        split
        · rename_i element isArray
          exact absurd isArray (notArray element)
        · rename_i element isList
          exact absurd isList (notList element)
        · rfl
      have value : lastWord (type ++ " " ++ member.name ++ ";") = member.name :=
        lastWord_field isWord (getLast?_append_blank _ (by decide))
      rw [namesWithLength, if_neg (by simp [without])]
      exact congrArg (fun name => [name]) value

/-- What the declarators of items declare, if each declares its names. -/
theorem declared_mapM {α : Type} {items : List α} {render : α → Emit (List String)}
    {rows : List (List String)} {names : α → List String} (rendered : items.mapM render = .ok rows)
    (each : ∀ item ∈ items, ∀ row, render item = .ok row → row.map lastWord = names item) :
    rows.flatten.map lastWord = items.flatMap names := by
  induction items generalizing rows with
  | nil =>
      cases rendered
      rfl
  | cons item rest ih =>
      rw [List.mapM_cons] at rendered
      obtain ⟨row, isRow, rendered⟩ := Emit.bind_eq_ok.mp rendered
      obtain ⟨others, areOthers, rendered⟩ := Emit.bind_eq_ok.mp rendered
      cases rendered
      rw [List.flatten_cons, List.map_append, List.flatMap_cons, each item List.mem_cons_self row isRow,
        ih areOthers fun other listed => each other (List.mem_cons_of_mem _ listed)]

end Declared

section Prototypes

variable {context : EmitContext} {methods : List (Nat × Method)} {method : Method}
variable {files : List GeneratedFile}

/-- The names that a prototype of a method declares. -/
def prototypeNames (types : TypeArena) (method : Method) : List String :=
  "self" :: method.parameters.flatMap (namesWithLength Parameter.name (parameterHasLength types))

/-- The prototype of a method: in the header, that of a slot of the function table; in the proxy and
in the service, that of the function. -/
def prototype (context : EmitContext) (artifact : Artifact) (method : Method)
    (declarators : List String) : String :=
  let parameters := String.intercalate ", " declarators
  match artifact with
  | .interface => s!"int32_t (*{method.name})({parameters});"
  | .proxy => s!"static int32_t {context.base}Proxy{method.name}({parameters})"
  | _ => s!"static int32_t {context.base}{method.name}({parameters})"

theorem declared_method (isMethod : method.Spelled) {parameters : String}
    (rendered : methodParameters context method = .ok parameters) :
    ∃ declarators, parameters = String.intercalate ", " declarators ∧
      declarators.map lastWord = prototypeNames context.types method := by
  obtain ⟨rows, areRows, rendered⟩ := Emit.bind_eq_ok.mp rendered
  cases rendered
  refine ⟨_, rfl, ?_⟩
  have isWord : Text.IsWord "self" :=
    ⟨by decide, List.all_eq_true.mp (by decide : "self".toList.all isWordChar = true)⟩
  have self : lastWord (s!"struct {context.name} *self") = "self" :=
    lastWord_eq ("struct ".toList ++ context.name.toList ++ [' ']) '*' [] isWord (by decide) (by simp)
      (by simp [toString])
  rw [List.map_cons, self, prototypeNames]
  congr 1
  exact declared_mapM areRows fun parameter listed row isRow =>
    declared_parameter (isMethod.parameters parameter listed) isRow

/-- The names of a prototype are distinct exactly if no parameter is named `self` or as the length of
a parameter. -/
theorem nodup_prototypeNames_iff (types : TypeArena)
    (distinct : (method.parameters.map Parameter.name).Nodup) :
    (prototypeNames types method).Nodup ↔
      (∀ parameter ∈ method.parameters, parameter.name ≠ "self") ∧
        ∀ parameter ∈ method.parameters, parameterHasLength types parameter = true →
          ∀ other ∈ method.parameters, other.name ≠ lengthName parameter.name := by
  rw [prototypeNames, List.nodup_cons, self_mem_namesWithLength_iff, nodup_namesWithLength_iff distinct]
  simp only [not_exists, not_and, ne_eq]

theorem prototype_ne_empty (artifact : Artifact) (declarators : List String) :
    prototype context artifact method declarators ≠ "" := by
  unfold prototype
  cases artifact with
  | interface => simp [toString]
  | proxy => simp [toString]
  | _ => simp [toString]

/-- A file of the artifact has a prototype of the method. -/
def HasPrototype (context : EmitContext) (artifact : Artifact) (method : Method)
    (files : List GeneratedFile) : Prop :=
  ∃ declarators, declarators.map lastWord = prototypeNames context.types method ∧
    ∃ file ∈ files, HasLines file.contents [prototype context artifact method declarators]

variable {command : Nat × Method}

/-- Where the prototype of a method stands with the parameters that are rendered for it. -/
theorem hasPrototype_of_contains {artifact : Artifact} {parameters : String} (isMethod : method.Spelled)
    (rendered : methodParameters context method = .ok parameters)
    (contains : ∀ declarators, parameters = String.intercalate ", " declarators →
      ∃ file ∈ files, file.Contains (Code.line (prototype context artifact method declarators))) :
    HasPrototype context artifact method files := by
  obtain ⟨declarators, spelled, names⟩ := declared_method isMethod rendered
  obtain ⟨file, isFile, inside⟩ := contains declarators spelled
  refine ⟨declarators, names, file, isFile, inside.hasLines (by simp) ?_⟩
  rw [List.mem_singleton]
  exact (prototype_ne_empty artifact declarators).symm

theorem hasPrototype_interface (isMethod : command.2.Spelled) (shown : context.methods = .ok methods)
    (listed : command ∈ methods) (rendered : interfaceHeader context = .ok files) :
    HasPrototype context .interface command.2 files := by
  unfold interfaceHeader at rendered
  obtain ⟨_, isMethods, rendered⟩ := Emit.bind_eq_ok.mp rendered
  cases shown.symm.trans isMethods
  obtain ⟨slots, areSlots, rendered⟩ := Emit.bind_eq_ok.mp rendered
  cases rendered
  obtain ⟨slot, isSlot, rendersTo⟩ := Emit.exists_of_mapM areSlots listed
  obtain ⟨parameters, areParameters, rendersTo⟩ := Emit.bind_eq_ok.mp rendersTo
  cases rendersTo
  refine hasPrototype_of_contains isMethod areParameters fun declarators spelled => ?_
  subst spelled
  refine ⟨_, List.mem_singleton_self _, (contains_header _ _ _ _).part_of ?_⟩
  apply (Code.infix_paragraphs isSlot).trans
  apply (List.prefix_append (Code.paragraphs slots) _).isInfix.trans
  apply (Code.infix_bracedWith s!"struct {context.name}" _ ";").trans
  apply Code.infix_paragraphs
  iterate 4 apply List.mem_cons_of_mem
  exact List.mem_cons_self

theorem hasPrototype_proxy (isMethod : command.2.Spelled) (shown : context.methods = .ok methods)
    (listed : command ∈ methods) (rendered : proxy context = .ok files) :
    HasPrototype context .proxy command.2 files := by
  obtain ⟨code, isCode, file, isFile, inside⟩ :=
    contains_proxyMethod shown (List.mem_map_of_mem listed) rendered
  unfold proxyMethod at isCode
  obtain ⟨interface, -, isCode⟩ := Emit.bind_eq_ok.mp isCode
  obtain ⟨parameters, areParameters, isCode⟩ := Emit.bind_eq_ok.mp isCode
  obtain ⟨arguments, -, isCode⟩ := Emit.bind_eq_ok.mp isCode
  obtain ⟨results, -, isCode⟩ := Emit.bind_eq_ok.mp isCode
  cases isCode
  refine hasPrototype_of_contains isMethod areParameters fun declarators spelled => ?_
  subst spelled
  exact ⟨file, isFile, inside.part_of (Code.infix_function _ _)⟩

theorem hasPrototype_service (isMethod : command.2.Spelled) (shown : context.methods = .ok methods)
    (listed : command ∈ methods) (rendered : service context = .ok files) :
    HasPrototype context .serviceImpl command.2 files := by
  unfold service at rendered
  obtain ⟨_, isMethods, rendered⟩ := Emit.bind_eq_ok.mp rendered
  cases shown.symm.trans isMethods
  obtain ⟨bodies, areBodies, rendered⟩ := Emit.bind_eq_ok.mp rendered
  cases rendered
  obtain ⟨code, isBody, rendersTo⟩ := Emit.exists_of_mapM areBodies (List.mem_map_of_mem listed)
  obtain ⟨parameters, areParameters, rendersTo⟩ := Emit.bind_eq_ok.mp rendersTo
  cases rendersTo
  refine hasPrototype_of_contains isMethod areParameters fun declarators spelled => ?_
  subst spelled
  refine ⟨_, List.mem_singleton_self _, (contains_source _ _ _ _ _).part_of ?_⟩
  exact (Code.infix_function _ _).trans
    (Code.infix_paragraphs (List.mem_append_left _ (List.mem_cons_of_mem _ isBody)))

/-- The header, the proxy and the service have a prototype of each method of the build. -/
theorem hasPrototype {artifact : Artifact} (isMethod : command.2.Spelled)
    (shown : context.methods = .ok methods) (listed : command ∈ methods)
    (declares : artifact ∈ [Artifact.interface, .proxy, .serviceImpl])
    (rendered : artifact.render context .c = .ok files) :
    HasPrototype context artifact command.2 files := by
  simp only [List.mem_cons, List.not_mem_nil, or_false] at declares
  rcases declares with rfl | rfl | rfl
  · exact hasPrototype_interface isMethod shown listed rendered
  · exact hasPrototype_proxy isMethod shown listed rendered
  · exact hasPrototype_service isMethod shown listed rendered

end Prototypes

section Fields

variable {context : EmitContext} {record : RecordType} {node : TypeNode} {files : List GeneratedFile}

/-- The names that the definition of a struct or union declares. -/
def fieldNames (types : TypeArena) (record : RecordType) : List String :=
  record.members.flatMap (namesWithLength Member.name (memberHasLength types))

/-- A file has the definition of a struct or union with its fields. -/
def HasFields (context : EmitContext) (node : TypeNode) (record : RecordType)
    (files : List GeneratedFile) : Prop :=
  ∃ declarations, declarations.map lastWord = fieldNames context.types record ∧
    ∃ file ∈ files, file.Contains (Code.bracedWith s!"{node.kindName} {record.name}"
      (Code.lines declarations) " __attribute__ ((aligned(8)));")

theorem hasFields (words : ∀ member ∈ record.members, Text.IsWord member.name)
    (emitted : node ∈ context.customTypes) (isRecord : node.record? = some record)
    (rendered : Artifact.render context .c .customTypes = .ok files) :
    HasFields context node record files := by
  obtain ⟨code, isDefinition, contains⟩ := EmitContext.contains_definition emitted rendered
  have declared {body : Code} (isBody : fields context.types record = .ok body) :
      ∃ declarations, body = Code.lines declarations ∧
        declarations.map lastWord = fieldNames context.types record := by
    obtain ⟨rows, areRows, isBody⟩ := Emit.bind_eq_ok.mp isBody
    cases isBody
    exact ⟨_, rfl, declared_mapM areRows fun member listed row isRow =>
      declared_member (words member listed) isRow⟩
  cases node with
  | struct found | union found =>
      obtain rfl : found = record := Option.some.inj isRecord
      obtain ⟨body, isBody, isDefinition⟩ := Emit.bind_eq_ok.mp isDefinition
      obtain ⟨declarations, rfl, names⟩ := declared isBody
      cases isDefinition
      exact ⟨declarations, names, contains⟩
  | _ => cases isRecord

theorem nodup_fieldNames_iff (types : TypeArena) (distinct : (record.members.map Member.name).Nodup) :
    (fieldNames types record).Nodup ↔
      ∀ member ∈ record.members, memberHasLength types member = true →
        ∀ other ∈ record.members, other.name ≠ lengthName member.name :=
  nodup_namesWithLength_iff distinct

end Fields

end CCode

open CCode

/-- The names that C declares for a method, `self` among them, are distinct exactly if no parameter is
named `self` or as the length of a parameter, and those of the fields of a struct or union exactly if
no member is named as the length of a member.  The header, the proxy and the service declare these
names for every method of the build, and the header of types for every struct and union. -/
theorem Program.declared_names_nodup_iff {program : Program} (reachable : program.Reachable)
    (options : Options) (unit : CompiledUnit) :
    (∀ methods, (EmitContext.mk options program unit).methods = .ok methods →
      ∀ command ∈ methods,
        (∀ artifact ∈ [Artifact.interface, .proxy, .serviceImpl], ∀ files,
          artifact.render ⟨options, program, unit⟩ .c = .ok files →
          HasPrototype ⟨options, program, unit⟩ artifact command.2 files) ∧
        ((prototypeNames program.types command.2).Nodup ↔
          (∀ parameter ∈ command.2.parameters, parameter.name ≠ "self") ∧
            ∀ parameter ∈ command.2.parameters, parameterHasLength program.types parameter = true →
              ∀ other ∈ command.2.parameters, other.name ≠ lengthName parameter.name)) ∧
      ∀ node ∈ (EmitContext.mk options program unit).customTypes, ∀ record,
        node.record? = some record →
          (∀ files, Artifact.render ⟨options, program, unit⟩ .c .customTypes = .ok files →
            HasFields ⟨options, program, unit⟩ node record files) ∧
          ((fieldNames program.types record).Nodup ↔
            ∀ member ∈ record.members, memberHasLength program.types member = true →
              ∀ other ∈ record.members, other.name ≠ lengthName member.name) := by
  constructor
  · intro methods shown command listed
    obtain ⟨declared, found, inInterface⟩ := EmitContext.interfaceOf?_of_methods shown
    have isMethod := inInterface command.2 (List.mem_map_of_mem listed)
    obtain ⟨id, -, isTarget⟩ := Option.bind_eq_some_iff.mp found
    obtain ⟨_, _, _, _, _, -, spelled⟩ := reachable.spelledMethods (node_of_interface? isTarget)
    have contract := spelled.keepsContract reachable.wellFormed.types
    exact ⟨fun artifact declares files rendered =>
      hasPrototype (.of_interface reachable found isMethod) shown listed declares rendered,
      nodup_prototypeNames_iff _ (contract.parameters_distinct command.2 isMethod)⟩
  · intro node emitted record isRecord
    obtain ⟨id, -, rfl⟩ := EmitContext.mem_customTypes emitted
    have named : ∀ member ∈ record.members, Text.IsWord member.name := fun member listed =>
      reachable.spelled.types id member.name (TypeNode.mem_names_of_member isRecord listed)
    have proper := reachable.coherent.proper id record (by rwa [TypeArena.record?_eq])
    exact ⟨fun files rendered => hasFields named emitted isRecord rendered,
      nodup_fieldNames_iff _ proper.2⟩

/-- What comes of a file with an interface of one method with two parameters. -/
def pairOutcome (first second : String) : ParseOutcome :=
  ({} : Program).parseSource { language := some .c } [] ⟨"a/v1_0/IFoo.idl"⟩
    ("package a.v1_0; interface IFoo \x7b Put(" ++ first ++ ", " ++ second ++ "); \x7d")

/-- What comes of a file with a struct of two members. -/
def fieldsOutcome (first second : String) : ParseOutcome :=
  ({} : Program).parseSource { language := some .c } [] ⟨"a/v1_0/Types.idl"⟩
    ("package a.v1_0; struct S \x7b " ++ first ++ "; " ++ second ++ "; \x7d;")

/-- The rendering of the first unit that a file leaves behind. -/
def renderedUnit (outcome : ParseOutcome) : EmitContext where
  options := { language := some .c }
  program := outcome.program
  unit := outcome.program.units.toList.headD default

/-- Of each method of a build, the names of its parameters, the names that C declares for them, and
their declarators. -/
def declaredOf (context : EmitContext) : Option (List (List String × List String × Option String)) :=
  context.methods.toOption.map (·.map fun command =>
    (command.2.parameters.map Parameter.name, prototypeNames context.types command.2,
      (methodParameters context command.2).toOption))

/-- Of each struct and union of a build, the names that C declares for its fields. -/
def declaredFields (context : EmitContext) : List (List String) :=
  (context.customTypes.filterMap TypeNode.record?).map (fieldNames context.types)

theorem exists_of_declared {context : EmitContext}
    {declared : List (List String × List String × Option String)}
    (known : declaredOf context = some declared) :
    ∃ methods, context.methods = .ok methods ∧ methods.map (fun command =>
      (command.2.parameters.map Parameter.name, prototypeNames context.types command.2,
        (methodParameters context command.2).toOption)) = declared := by
  cases shown : context.methods with
  | error fault => simp [declaredOf, shown, Except.toOption] at known
  | ok methods =>
      rw [declaredOf, shown] at known
      exact ⟨methods, rfl, Option.some.inj known⟩

theorem declaredOf_size :
    declaredOf (renderedUnit (pairOutcome "[in] int[] x" "[in] int size")) =
      some [(["x", "size"], ["self", "x", "xLen", "size"],
          some "struct IFoo *self, const int32_t* x, uint32_t xLen, int32_t size"),
        (["majorVer", "minorVer"], ["self", "majorVer", "minorVer"],
          some "struct IFoo *self, uint32_t* majorVer, uint32_t* minorVer")] := by
  decide +kernel

/-- An array and a size of another name get prototypes without a clash. -/
theorem declared_names_nodup_size : ∃ methods,
    (renderedUnit (pairOutcome "[in] int[] x" "[in] int size")).methods = .ok methods ∧
      methods ≠ [] ∧ ∀ command ∈ methods,
        (prototypeNames (pairOutcome "[in] int[] x" "[in] int size").program.types command.2).Nodup := by
  obtain ⟨methods, shown, declared⟩ := exists_of_declared declaredOf_size
  have reachable : (pairOutcome "[in] int[] x" "[in] int size").program.Reachable :=
    .parse _ _ _ _ .empty
  have shows : methods ≠ [] := by
    rintro rfl
    cases declared
  refine ⟨methods, shown, shows, fun command listed => ?_⟩
  have apart : ∀ names ∈ [["x", "size"], ["majorVer", "minorVer"]], ∀ name ∈ names,
      name ≠ "self" ∧ ∀ other ∈ names, other ≠ lengthName name := by
    decide
  have ofCommand : command.2.parameters.map Parameter.name ∈
      [["x", "size"], ["majorVer", "minorVer"]] := by
    have names := congrArg (List.map Prod.fst) declared
    simp only [List.map_map, Function.comp_def, List.map_cons, List.map_nil] at names
    rw [← names]
    exact List.mem_map_of_mem listed
  rw [((Program.declared_names_nodup_iff reachable _ _).1 methods shown command listed).2]
  exact ⟨fun parameter isParameter => (apart _ ofCommand _ (List.mem_map_of_mem isParameter)).1,
    fun parameter isParameter _ other isOther =>
      (apart _ ofCommand _ (List.mem_map_of_mem isParameter)).2 _ (List.mem_map_of_mem isOther)⟩

theorem clashes_spec :
    ((pairOutcome "[in] int[] x" "[in] int xLen").accepted = true ∧
      declaredOf (renderedUnit (pairOutcome "[in] int[] x" "[in] int xLen")) =
        some [(["x", "xLen"], ["self", "x", "xLen", "xLen"],
            some "struct IFoo *self, const int32_t* x, uint32_t xLen, int32_t xLen"),
          (["majorVer", "minorVer"], ["self", "majorVer", "minorVer"],
            some "struct IFoo *self, uint32_t* majorVer, uint32_t* minorVer")]) ∧
    ((pairOutcome "[in] int x" "[in] int self").accepted = true ∧
      declaredOf (renderedUnit (pairOutcome "[in] int x" "[in] int self")) =
        some [(["x", "self"], ["self", "x", "self"],
            some "struct IFoo *self, int32_t x, int32_t self"),
          (["majorVer", "minorVer"], ["self", "majorVer", "minorVer"],
            some "struct IFoo *self, uint32_t* majorVer, uint32_t* minorVer")]) ∧
    ((fieldsOutcome "int[] x" "int xLen").accepted = true ∧
      declaredFields (renderedUnit (fieldsOutcome "int[] x" "int xLen")) =
        [["x", "xLen", "xLen"]]) := by
  decide +kernel

/-- Accepted files get a prototype with two parameters of one name, also where one is named `self`,
and a struct with two fields of one name. -/
theorem accepted_declarations_clash :
    (∀ pair ∈ [("[in] int[] x", "[in] int xLen"), ("[in] int x", "[in] int self")],
      (pairOutcome pair.1 pair.2).accepted = true ∧
        ∃ methods, (renderedUnit (pairOutcome pair.1 pair.2)).methods = .ok methods ∧
          ∃ command ∈ methods,
            ¬(prototypeNames (pairOutcome pair.1 pair.2).program.types command.2).Nodup) ∧
      (fieldsOutcome "int[] x" "int xLen").accepted = true ∧
      ∃ names ∈ declaredFields (renderedUnit (fieldsOutcome "int[] x" "int xLen")), ¬names.Nodup := by
  obtain ⟨⟨isLength, lengths⟩, ⟨isSelf, selves⟩, isFields, fields⟩ := clashes_spec
  have clashes {context : EmitContext} {names : List String} {rest : List String × Option String}
      {others : List (List String × List String × Option String)}
      (known : declaredOf context = some ((names, rest) :: others)) (twice : ¬rest.1.Nodup) :
      ∃ methods, context.methods = .ok methods ∧
        ∃ command ∈ methods, ¬(prototypeNames context.types command.2).Nodup := by
    obtain ⟨methods, shown, declared⟩ := exists_of_declared known
    cases methods with
    | nil => cases declared
    | cons command more =>
        rw [List.map_cons, List.cons.injEq] at declared
        obtain ⟨rfl, rfl⟩ := Prod.mk.inj declared.1
        exact ⟨_, shown, command, List.mem_cons_self, twice⟩
  refine ⟨?_, isFields, ["x", "xLen", "xLen"], ?_, by decide⟩
  · simp only [List.mem_cons, List.not_mem_nil, or_false, forall_eq_or_imp, forall_eq]
    exact ⟨⟨isLength, clashes lengths (by decide)⟩, isSelf, clashes selves (by decide)⟩
  · rw [fields]
    exact List.mem_singleton_self _

end DriverIdl
