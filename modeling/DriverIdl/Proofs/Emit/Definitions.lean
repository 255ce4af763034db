import DriverIdl.Emit.Render
import DriverIdl.Proofs.Emit.CCalls
import DriverIdl.Proofs.Emit.CppCalls
import DriverIdl.Proofs.Emit.DefinedNames
import DriverIdl.Proofs.Enum.Values
import DriverIdl.Proofs.Text.Signs

/-!
# What headers define

The code that a C or C++ header has for a type defines this type and no other one.
-/

namespace DriverIdl

open CodeLexeme

/-- The name under which a language defines a type of a unit.  Java has no unions. -/
def Language.definesAs? : Language → TypeNode → Option String
  | _, .enum declared => some declared.name
  | _, .struct record => some record.name
  | .c, .union record | .cpp, .union record => some record.name
  | _, _ => none

/-- A type whose names are words, with those of the members of enums. -/
structure TypeNode.WordNamed (node : TypeNode) : Prop where
  names : ∀ name ∈ node.names, Text.IsWord name
  values : ∀ declared, node = .enum declared → ∀ member ∈ declared.members, Text.IsWord member.name

section Names

theorem EnumMembersText.mem_tokens {earlier all : List EnumMember} {tokens : List Token}
    (text : EnumMembersText earlier tokens all) {member : EnumMember} (listed : member ∈ all) :
    member ∈ earlier ∨ ⟨.identifier, member.name, member.place⟩ ∈ tokens := by
  induction text with
  | done => exact .inl listed
  | last value => exact (List.mem_append.mp listed).imp_right fun isLast => by simp_all
  | more value isComma later ih =>
      rcases ih listed with known | behind
      · exact (List.mem_append.mp known).imp_right fun isNew => by simp_all
      · exact .inr (by simp [behind])

theorem TypeNode.WordNamed.members {node : TypeNode} {record : RecordType} (named : node.WordNamed)
    (isRecord : node.record? = some record) : ∀ member ∈ record.members, Text.IsWord member.name := by
  intro member listed
  apply named.names
  cases node <;> cases isRecord
  all_goals exact List.mem_cons_of_mem _ (List.mem_map_of_mem listed)

/-- The names of a program are words, and so are those of the members of its enums. -/
theorem Program.Reachable.wordNamed {program : Program} (reachable : program.Reachable) (id : TypeId) :
    (program.types.node id).WordNamed where
  names := reachable.spelled.types id
  values declared isEnum member listed := by
    obtain ⟨⟨_, _, _, _, source, introduced⟩, -⟩ := reachable.introducedEnum isEnum
    obtain ⟨early, keyword, base, opening, body, closing, late, tokens, -, -, -, -, members⟩ :=
      introduced.text
    have inBody := (members.mem_tokens listed).resolve_left List.not_mem_nil
    have inSource : ⟨.identifier, member.name, member.place⟩ ∈ sourceTokens source := by
      simp [tokens, inBody]
    exact (TokenStream.wellSpelled_ofSource source _ (List.mem_filter.mp inSource).1).word rfl

end Names

/-- If the code for each type defines this type alone, all of it defines the types in order. -/
theorem Language.definedIn_definitions {language : Language} {nodes : List TypeNode}
    {definition : TypeNode → Emit Code} {codes : List Code}
    (rendered : nodes.mapM definition = .ok codes)
    (defines : ∀ node ∈ nodes, ∀ code, definition node = .ok code →
      language.definedIn code = ((language.definesAs? node).map String.toList).toList) :
    codes.flatMap language.definedIn =
      (nodes.filterMap language.definesAs?).map String.toList := by
  induction nodes generalizing codes with
  | nil =>
      cases rendered
      rfl
  | cons node rest ih =>
      rw [List.mapM_cons] at rendered
      obtain ⟨code, isCode, rendered⟩ := Emit.bind_eq_ok.mp rendered
      obtain ⟨others, areOthers, rendered⟩ := Emit.bind_eq_ok.mp rendered
      cases rendered
      rw [List.flatMap_cons, defines node List.mem_cons_self code isCode,
        ih areOthers fun other listed => defines other (List.mem_cons_of_mem _ listed)]
      cases isName : language.definesAs? node <;> simp [isName]

section Heads

variable {language : Language} {name : String}

theorem CodeLexeme.Tame.oneLine {text : String} (tame : Tame text) : '\n' ∉ text.toList :=
  tame.not_mem rfl

/-- The keyword of a definition and a name in front of a block define this name. -/
theorem definedOn_block {keyword head : String} (isKeyword : IsRun keyword)
    (listed : [keyword.toList] ∈ language.definers) (isName : Text.IsWord name)
    (spelled : head.toList = keyword.toList ++ ' ' :: name.toList) :
    language.definedOn (head ++ " \x7b") = [name.toList] := by
  have isRun := isName.isRun
  have whole : (head ++ " \x7b").toList =
      keyword.toList ++ ' ' :: (name.toList ++ [' ', '\x7b']) := by simp [spelled]
  refine definedOn_of_definition [keyword.toList] [] ?_ (by rw [whole, isKeyword.ofLine_append])
    ?_ ?_ listed
  · simp [spelled, isKeyword.tame.oneLine, isRun.tame.oneLine]
  · simp [isKeyword, isRun, List.getLast?_cons]
  · simp [isKeyword, isRun, words]

/-- If nothing in the block starts a definition, the name is the only one. -/
theorem definedIn_block {keyword head mark : String} {body : Code} (isKeyword : IsRun keyword)
    (listed : [keyword.toList] ∈ language.definers) (isName : Text.IsWord name)
    (spelled : head.toList = keyword.toList ++ ' ' :: name.toList)
    (quiet : language.definedIn body = []) (closes : Unopened ("\x7d" ++ mark)) :
    language.definedIn (Code.bracedWith head body mark) = [name.toList] :=
  (Language.definedIn_bracedWith_of_quiet quiet closes).trans
    (definedOn_block isKeyword listed isName spelled)

/-- The same line for an enum with its base type. -/
theorem definedOn_enum {base : String} (isBase : IsRun base) (isName : Text.IsWord name) :
    Language.cpp.definedOn (s!"enum {name} : {base}" ++ " \x7b") = [name.toList] := by
  have isRun := isName.isRun
  refine definedOn_of_definition [['e', 'n', 'u', 'm']] [[':'], base.toList] ?_ rfl ?_ ?_ (by decide)
  · simp [toString, isBase.tame.oneLine, isRun.tame.oneLine]
  · simp +decide [ofLine, toString, isBase, isRun, List.getLast?_cons]
  · simp +decide [ofLine, toString, isBase, isRun, words]

end Heads

section Literals

theorem oneLine_digits (number : Nat) : '\n' ∉ Nat.toDigits 10 number :=
  fun inside => absurd (Nat.isDigit_of_mem_toDigits (by decide) (by decide) inside) (by decide)

/-- A number is printed without line breaks. -/
theorem Nat.oneLine_repr (number : Nat) : '\n' ∉ number.repr.toList := by
  rw [Nat.repr_eq_ofList_toDigits, String.toList_ofList]
  exact oneLine_digits number

theorem Int.oneLine_repr (value : Int) : '\n' ∉ value.repr.toList := by
  cases value with
  | ofNat number => exact Nat.oneLine_repr number
  | negSucc number =>
      rw [show (Int.negSucc number).repr = "-" ++ Nat.repr (number + 1) from rfl, String.toList_append]
      exact fun inside => (List.mem_append.mp inside).elim (by decide) (Nat.oneLine_repr _)

theorem oneLine_enumLiteral (value : Int) : '\n' ∉ (enumLiteral value).toList := by
  rw [enumLiteral]
  split <;> simp [toString, Int.oneLine_repr]

theorem definedOn_enumMember {language : Language} {name : String} (isName : Text.IsWord name)
    (value : Int) :
    language.definedOn s!"{name} = {enumLiteral value}," = [] := by
  refine (Unopened.of_append ?_ (by decide)).definedOn
  simp [toString, isName.isRun.tame.oneLine, oneLine_enumLiteral]

end Literals

namespace CCode

variable {types : TypeArena}

theorem definedOn_memberDeclarations (spelled : types.Spelled) {member : Member}
    (isName : Text.IsWord member.name) {declarations : List String}
    (rendered : memberDeclarations types member = .ok declarations) :
    ∀ text ∈ declarations, Language.c.definedOn text = [] := by
  have isRun := isName.isRun
  have field {type : String} (phrase : IsPhrase type) :
      Language.c.definedOn s!"{type} {member.name};" = [] := by
    have tame : Tame s!"{type} {member.name};" := by simp +decide [toString, isRun, phrase.tame]
    exact tame.unopened.definedOn
  have pointer {type : String} (phrase : IsPhrase type) :
      Language.c.definedOn s!"{type}* {member.name};" = [] := by
    have tame : Tame s!"{type}* {member.name};" := by simp +decide [toString, isRun, phrase.tame]
    exact tame.unopened.definedOn
  have length : Language.c.definedOn s!"uint32_t {member.name}Len;" = [] := by
    have tame : Tame s!"uint32_t {member.name}Len;" := by simp +decide [toString, isRun]
    exact tame.unopened.definedOn
  unfold memberDeclarations at rendered
  split at rendered
  all_goals
    obtain ⟨type, isType, rendered⟩ := Emit.bind_eq_ok.mp rendered
    cases rendered
    have phrase := isPhrase_typeName spelled isType
    simp [field phrase, pointer phrase, length]

theorem definedIn_fields (spelled : types.Spelled) {record : RecordType}
    (named : ∀ member ∈ record.members, Text.IsWord member.name) {code : Code}
    (rendered : fields types record = .ok code) : Language.c.definedIn code = [] := by
  obtain ⟨declarations, areDeclarations, rendered⟩ := Emit.bind_eq_ok.mp rendered
  cases rendered
  refine Language.definedIn_lines fun text listed => ?_
  obtain ⟨texts, isTexts, inside⟩ := List.mem_flatten.mp listed
  obtain ⟨member, isMember, rendersTo⟩ := Emit.exists_of_mem_mapM areDeclarations isTexts
  exact definedOn_memberDeclarations spelled (named member isMember) rendersTo text inside

/-- The code for a type defines the type, and nothing else. -/
theorem definedIn_definition (spelled : types.Spelled) {node : TypeNode} (named : node.WordNamed)
    {code : Code} (rendered : definition types node = .ok code) :
    Language.c.definedIn code = ((Language.c.definesAs? node).map String.toList).toList := by
  cases node with
  | enum declared =>
      cases rendered
      refine definedIn_block (by decide : IsRun "enum") (by decide)
        (named.names _ List.mem_cons_self) (by simp [toString]) ?_ (by decide)
      refine Language.definedIn_lines fun text listed => ?_
      obtain ⟨member, isMember, rfl⟩ := List.mem_map.mp listed
      exact definedOn_enumMember (named.values declared rfl member isMember) member.value
  | struct record =>
      obtain ⟨body, isBody, rendered⟩ := Emit.bind_eq_ok.mp rendered
      cases rendered
      exact definedIn_block (by decide : IsRun "struct") (by decide)
        (named.names _ List.mem_cons_self) (by simp [toString])
        (definedIn_fields spelled (named.members rfl) isBody) (by decide)
  | union record =>
      obtain ⟨body, isBody, rendered⟩ := Emit.bind_eq_ok.mp rendered
      cases rendered
      exact definedIn_block (by decide : IsRun "union") (by decide)
        (named.names _ List.mem_cons_self) (by simp [toString])
        (definedIn_fields spelled (named.members rfl) isBody) (by decide)
  | _ =>
      cases rendered
      rfl

end CCode

namespace CppCode

variable {context : EmitContext}

theorem definedIn_fields (spelled : context.program.Spelled) {record : RecordType}
    (named : ∀ member ∈ record.members, Text.IsWord member.name) :
    Language.cpp.definedIn (fields context record) = [] := by
  refine Language.definedIn_lines fun text listed => ?_
  obtain ⟨member, isMember, rfl⟩ := List.mem_map.mp listed
  have tame : Tame s!"{typeName context member.type} {member.name};" := by
    simp +decide [toString, (named member isMember).isRun, (isPhrase_typeName spelled member.type).tame]
  exact tame.unopened.definedOn

/-- The code for a type defines the type, and nothing else. -/
theorem definedIn_definition (spelled : context.program.Spelled) {node : TypeNode}
    (named : node.WordNamed) :
    Language.cpp.definedIn (definition context node) =
      ((Language.cpp.definesAs? node).map String.toList).toList := by
  cases node with
  | enum declared =>
      refine (Language.definedIn_bracedWith_of_quiet ?_ (by decide)).trans
        (definedOn_enum (isRun_primitiveType declared.base) (named.names _ List.mem_cons_self))
      refine Language.definedIn_lines fun text listed => ?_
      obtain ⟨member, isMember, rfl⟩ := List.mem_map.mp listed
      exact definedOn_enumMember (named.values declared rfl member isMember) member.value
  | struct record =>
      exact definedIn_block (by decide : IsRun "struct") (by decide)
        (named.names _ List.mem_cons_self) (by simp [toString])
        (definedIn_fields spelled (named.members rfl)) (by decide)
  | union record =>
      exact definedIn_block (by decide : IsRun "union") (by decide)
        (named.names _ List.mem_cons_self) (by simp [toString])
        (definedIn_fields spelled (named.members rfl)) (by decide)
  | _ => rfl

end CppCode

end DriverIdl
