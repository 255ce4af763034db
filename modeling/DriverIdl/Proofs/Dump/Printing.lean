import DriverIdl.Dump.Basic
import DriverIdl.Proofs.Dump.DeclarationSequence
import DriverIdl.Proofs.Dump.Lexing
import DriverIdl.Proofs.Program.Containers

/-!
# The words of what is printed

Types, declarations and lines are printed with the words that they are read from again.
-/

namespace DriverIdl

open Token Lexeme

variable {arena : TypeArena} {words others : List Word} {rest : List Char}

section Types

theorem Primitive.wordsOf_name {kind : Primitive} (written : kind ≠ .void) (breaks : Breaks rest) :
    wordsOf (kind.name.toList ++ rest) = kind.words ++ wordsOf rest := by
  have unsigned : ∀ (second : String) {kind : TokenKind}, TokenKind.keyword? second = some kind →
      wordsOf (("unsigned" ++ " " ++ second).toList ++ rest) =
        (.unsigned, "unsigned") :: (kind, second) :: wordsOf rest := by
    intro second kind reserved
    rw [String.toList_append, List.append_assoc, wordsOf_keyword_space rfl,
      wordsOf_keyword reserved breaks]
  cases kind with
  | void => exact absurd rfl written
  | uchar => exact unsigned "char" rfl
  | ushort => exact unsigned "short" rfl
  | uint => exact unsigned "int" rfl
  | ulong => exact unsigned "long" rfl
  | _ => exact wordsOf_keyword rfl breaks

theorem wordsOf_container (keyword : String) {element : String} {kind : TokenKind}
    (reserved : TokenKind.keyword? keyword = some kind)
    (inner : ∀ rest, Breaks rest → wordsOf (element.toList ++ rest) = words ++ wordsOf rest) :
    wordsOf ((keyword ++ "<" ++ element ++ ">").toList ++ rest) =
      (kind, keyword) :: (.angleOpen, "<") :: (words ++ [(.angleClose, ">")]) ++ wordsOf rest := by
  simp only [String.toList_append, List.append_assoc, String.reduceToList, List.cons_append,
    List.nil_append]
  rw [wordsOf_keyword reserved (.cons rfl), wordsOf_delimiter _ rfl, inner _ (.cons rfl),
    wordsOf_delimiter _ rfl]
  rfl

theorem TypeArena.spellWithin_of_name? {type : TypeId} {name : String}
    (node : (arena.node type).name? = some name) (depth : Nat) :
    arena.spellWithin (depth + 1) type = name := by
  rw [spellWithin]
  cases isNode : arena.node type <;> simp [isNode, TypeNode.name?] at node ⊢ <;> exact node

/-- A type is printed with its words, if the depth is greater than its number. -/
theorem TypeArena.wordsOf_spellWithin {type : TypeId} (first : arena.ElementsFirst)
    (spelled : TypeWords arena type words) {depth : Nat} (deep : type < depth)
    (breaks : Breaks rest) :
    wordsOf ((arena.spellWithin depth type).toList ++ rest) = words ++ wordsOf rest := by
  have lower : ∀ {outer inner depth : Nat}, outer < depth + 1 →
      inner ∈ (arena.node outer).elements → inner < depth :=
    fun deep holds => Nat.lt_of_lt_of_le (first _ _ holds) (Nat.le_of_lt_succ deep)
  induction spelled generalizing depth rest with
  | primitive node written =>
      obtain ⟨depth, rfl⟩ := Nat.exists_eq_add_one_of_ne_zero (Nat.ne_zero_of_lt deep)
      simp only [spellWithin, node]
      exact Primitive.wordsOf_name written breaks
  | named node isName =>
      obtain ⟨depth, rfl⟩ := Nat.exists_eq_add_one_of_ne_zero (Nat.ne_zero_of_lt deep)
      rw [spellWithin_of_name? node]
      exact wordsOf_name isName breaks
  | @array type element words node _ ih =>
      obtain ⟨depth, rfl⟩ := Nat.exists_eq_add_one_of_ne_zero (Nat.ne_zero_of_lt deep)
      have below : element < depth := lower deep (by simp [node, TypeNode.elements])
      simp only [spellWithin, node, String.toList_append, List.append_assoc, String.reduceToList,
        List.cons_append, List.nil_append]
      rw [ih below (.cons rfl), wordsOf_delimiter _ rfl, wordsOf_delimiter _ rfl]
      rfl
  | @list type element words node _ ih =>
      obtain ⟨depth, rfl⟩ := Nat.exists_eq_add_one_of_ne_zero (Nat.ne_zero_of_lt deep)
      have below : element < depth := lower deep (by simp [node, TypeNode.elements])
      simp only [spellWithin, node]
      exact wordsOf_container "List" rfl fun _ breaks => ih below breaks
  | @map type key value words others node _ _ ihKeys ihValues =>
      obtain ⟨depth, rfl⟩ := Nat.exists_eq_add_one_of_ne_zero (Nat.ne_zero_of_lt deep)
      have keyBelow : key < depth := lower deep (by simp [node, TypeNode.elements])
      have valueBelow : value < depth := lower deep (by simp [node, TypeNode.elements])
      simp only [spellWithin, node]
      have inner : ∀ rest, Breaks rest →
          wordsOf ((arena.spellWithin depth key ++ ", " ++ arena.spellWithin depth value).toList ++
            rest) = (words ++ (.comma, ",") :: others) ++ wordsOf rest := by
        intro rest breaks
        simp only [String.toList_append, List.append_assoc, String.reduceToList, List.cons_append,
          List.nil_append]
        rw [ihKeys keyBelow (.cons rfl), wordsOf_delimiter _ rfl, wordsOf_space,
          ihValues valueBelow breaks]
        rfl
      have whole := @wordsOf_container _ rest "Map" _ _ rfl inner
      simpa [String.append_assoc] using whole
  | @queue type element words node _ ih =>
      obtain ⟨depth, rfl⟩ := Nat.exists_eq_add_one_of_ne_zero (Nat.ne_zero_of_lt deep)
      have below : element < depth := lower deep (by simp [node, TypeNode.elements])
      simp only [spellWithin, node]
      exact wordsOf_container "SharedMemQueue" rfl fun _ breaks => ih below breaks

theorem TypeArena.wordsOf_spelling {type : TypeId} (first : arena.ElementsFirst)
    (spelled : TypeWords arena type words) (breaks : Breaks rest) :
    wordsOf ((arena.spelling type).toList ++ rest) = words ++ wordsOf rest :=
  wordsOf_spellWithin first spelled (Nat.lt_succ_of_lt spelled.inside) breaks

end Types

section Lines

/-- A line has these words in front of another line and at the end of the text. -/
def LineWords (line : String) (words : List Word) : Prop :=
  ∀ rest, (∀ next ∈ rest.head?, next = '\n') → wordsOf (line.toList ++ rest) = words ++ wordsOf rest

/-- A text that has these words in front of whatever breaks names, as a line. -/
theorem LineWords.of_breaks {line : String}
    (spelled : ∀ rest, Breaks rest → wordsOf (line.toList ++ rest) = words ++ wordsOf rest) :
    LineWords line words := by
  intro rest ends
  apply spelled
  intro next isHead
  rw [ends next isHead]
  rfl

theorem LineWords.blank : LineWords "" [] := fun _ _ => rfl

/-- The words of lines. -/
inductive LinesWords : List String → List Word → Prop where
  | nil : LinesWords [] []
  | cons {line : String} {lines : List String} {words others : List Word}
      (first : LineWords line words) (later : LinesWords lines others) :
      LinesWords (line :: lines) (words ++ others)

namespace LinesWords

variable {lines more : List String}

theorem blank (later : LinesWords lines words) : LinesWords ("" :: lines) words :=
  .cons .blank later

theorem single {line : String} (spelled : LineWords line words) : LinesWords [line] words := by
  have whole := cons spelled nil
  rwa [List.append_nil] at whole

theorem append (first : LinesWords lines words) (second : LinesWords more others) :
    LinesWords (lines ++ more) (words ++ others) := by
  induction first with
  | nil => exact second
  | cons line _ ih =>
      rw [List.append_assoc]
      exact .cons line ih

/-- A text has the words of its lines. -/
theorem wordsOf_intercalate (spelled : LinesWords lines words) :
    wordsOf (String.intercalate "\n" lines).toList = words := by
  induction spelled with
  | nil => simp
  | @cons line lines words others first later ih =>
      cases lines with
      | nil =>
          have alone := first [] (by simp)
          rw [wordsOf_nil, List.append_nil, List.append_nil] at alone
          cases later
          simpa using alone
      | cons next more =>
          rw [String.intercalate_cons_cons, String.toList_append, String.toList_append,
            List.append_assoc, first ("\n".toList ++ _) (by simp)]
          exact congrArg _ ((wordsOf_lineFeed _).trans ih)

end LinesWords

end Lines

section Declarations

open Dump

theorem wordsOf_attributesText {attributes : Attributes} (ofType : attributes.OfType)
    (rest : List Char) :
    wordsOf ((attributesText attributes).toList ++ rest) = attributes.words ++ wordsOf rest := by
  have alone : ∀ (word : String) {kind : TokenKind}, TokenKind.keyword? word = some kind →
      wordsOf (("[" ++ commaSeparated [word] ++ "] ").toList ++ rest) =
        (.bracketOpen, "[") :: (kind, word) :: (.bracketClose, "]") :: wordsOf rest := by
    intro word kind reserved
    simp only [commaSeparated, String.intercalate_singleton, String.toList_append,
      List.append_assoc, String.reduceToList, List.cons_append, List.nil_append]
    rw [wordsOf_delimiter _ rfl, wordsOf_keyword reserved (.cons rfl), wordsOf_delimiter _ rfl,
      wordsOf_space]
    rfl
  obtain ⟨oneway, callback, full, lite⟩ := attributes
  obtain ⟨notOneway, notCallback, exclusive⟩ := ofType
  obtain rfl : oneway = false := notOneway
  obtain rfl : callback = false := notCallback
  cases full with
  | true =>
      obtain rfl : lite = false := by simpa using exclusive
      exact alone "full" rfl
  | false =>
      cases lite with
      | true => exact alone "lite" rfl
      | false => rfl

theorem lineWords_closing :
    LineWords "\x7d;" [(.braceClose, "\x7d"), (.semicolon, ";")] := .of_breaks fun rest _ => by
  simp only [String.reduceToList, List.cons_append, List.nil_append]
  rw [wordsOf_delimiter _ rfl, wordsOf_delimiter _ rfl]
  rfl

/-- A member of a record is printed with its words. -/
theorem lineWords_member (first : arena.ElementsFirst) {member : Member}
    (type : TypeWords arena member.type words) (isName : Text.IsName member.name) :
    LineWords ("    " ++ arena.spelling member.type ++ " " ++ member.name ++ ";")
      (words ++ [(.identifier, member.name), (.semicolon, ";")]) := .of_breaks fun rest _ => by
  simp only [String.toList_append, List.append_assoc, String.reduceToList, List.cons_append,
    List.nil_append, wordsOf_space]
  rw [arena.wordsOf_spelling first type (.cons rfl), wordsOf_space, wordsOf_name isName (.cons rfl),
    wordsOf_delimiter _ rfl]
  rfl

theorem linesWords_members (first : arena.ElementsFirst) {members : List Member}
    (spelled : MembersWords arena members words) :
    LinesWords (members.map fun member =>
      "    " ++ arena.spelling member.type ++ " " ++ member.name ++ ";") words := by
  induction spelled with
  | nil => exact .nil
  | cons type isName _ ih =>
      have whole := LinesWords.cons (lineWords_member first type isName) ih
      simpa using whole

/-- The line that opens a struct or union. -/
theorem lineWords_recordHead {record : RecordType} {keyword : String} {kind : TokenKind}
    (reserved : TokenKind.keyword? keyword = some kind) (ofType : record.attributes.OfType)
    (isName : Text.IsName record.name) :
    LineWords (attributesText record.attributes ++ keyword ++ " " ++ record.name ++ " \x7b")
      (record.attributes.words ++
        [(kind, keyword), (.identifier, record.name), (.braceOpen, "\x7b")]) :=
  .of_breaks fun rest _ => by
    simp only [String.toList_append, List.append_assoc, String.reduceToList, List.cons_append,
      List.nil_append]
    rw [wordsOf_attributesText ofType, wordsOf_keyword reserved (.cons rfl), wordsOf_space,
      wordsOf_name isName (.cons rfl), wordsOf_space, wordsOf_delimiter _ rfl]
    rfl

theorem linesWords_record (first : arena.ElementsFirst) {record : RecordType} {keyword : String}
    {kind : TokenKind} (reserved : TokenKind.keyword? keyword = some kind)
    (ofType : record.attributes.OfType) (isName : Text.IsName record.name)
    (spelled : MembersWords arena record.members words) :
    LinesWords (recordLines arena keyword record) (recordWords (kind, keyword) record words) := by
  have whole := (LinesWords.single (lineWords_recordHead reserved ofType isName)).append
    ((linesWords_members first spelled).append (.single lineWords_closing))
  simpa [recordLines, recordWords] using whole

/-- A number is printed with its words. -/
theorem wordsOf_int (number : Int) (breaks : Breaks rest) :
    wordsOf ((toString number).toList ++ rest) = numberWords number ++ wordsOf rest := by
  cases number with
  | ofNat number => exact wordsOf_number number breaks
  | negSucc number =>
      have printed : toString (Int.negSucc number) = "-" ++ toString (number + 1) := rfl
      rw [printed, String.toList_append, List.append_assoc]
      exact (wordsOf_delimiter _ rfl).trans (congrArg _ (wordsOf_number (number + 1) breaks))

/-- A member of an enum is printed with its words. -/
theorem lineWords_enumMember {member : EnumMember} (isName : Text.IsName member.name) :
    LineWords ("    " ++ member.name ++ " = " ++ toString member.value ++ ",") member.words :=
  .of_breaks fun rest _ => by
    simp only [String.toList_append, List.append_assoc, String.reduceToList, List.cons_append,
      List.nil_append, wordsOf_space]
    rw [wordsOf_name isName (.cons rfl), wordsOf_space, wordsOf_delimiter _ rfl, wordsOf_space,
      wordsOf_int member.value (.cons rfl), wordsOf_delimiter _ rfl]
    simp [EnumMember.words]

theorem linesWords_enumMembers {members : List EnumMember}
    (names : ∀ member ∈ members, Text.IsName member.name) :
    LinesWords (members.map fun member =>
        "    " ++ member.name ++ " = " ++ toString member.value ++ ",")
      (members.flatMap EnumMember.words) := by
  induction members with
  | nil => exact .nil
  | cons member members ih =>
      exact .cons (lineWords_enumMember (names member List.mem_cons_self))
        (ih fun other listed => names other (List.mem_cons_of_mem _ listed))

/-- The line that opens an enum. -/
theorem lineWords_enumHead {declared : EnumType} (ofType : declared.attributes.OfType)
    (isName : Text.IsName declared.name) (integral : declared.base.isIntegral = true) :
    LineWords (attributesText declared.attributes ++ "enum " ++ declared.name ++ " : " ++
        declared.base.name ++ " \x7b")
      (declared.attributes.words ++ (.enum, "enum") :: (.identifier, declared.name) ::
        (.colon, ":") :: (declared.base.words ++ [(.braceOpen, "\x7b")])) :=
  .of_breaks fun rest _ => by
    have written : declared.base ≠ .void := by
      intro isVoid
      rw [isVoid] at integral
      cases integral
    have spaced : "enum " = "enum" ++ " " := rfl
    rw [spaced]
    simp only [String.toList_append, List.append_assoc]
    rw [wordsOf_attributesText ofType, ← List.append_assoc "enum".toList, ← String.toList_append,
      wordsOf_keyword_space rfl]
    simp only [String.reduceToList, List.cons_append, List.nil_append]
    rw [wordsOf_name isName (.cons rfl), wordsOf_space, wordsOf_delimiter _ rfl, wordsOf_space,
      Primitive.wordsOf_name written (.cons rfl), wordsOf_space, wordsOf_delimiter _ rfl]
    simp

theorem linesWords_enum {declared : EnumType} (ofType : declared.attributes.OfType)
    (isName : Text.IsName declared.name) (integral : declared.base.isIntegral = true)
    (names : ∀ member ∈ declared.members, Text.IsName member.name) :
    LinesWords ([attributesText declared.attributes ++ "enum " ++ declared.name ++ " : " ++
          declared.base.name ++ " \x7b"] ++
        declared.members.map (fun member =>
          "    " ++ member.name ++ " = " ++ toString member.value ++ ",") ++ ["\x7d;"])
      declared.words := by
  have whole := (LinesWords.single (lineWords_enumHead ofType isName integral)).append
    ((linesWords_enumMembers names).append (.single lineWords_closing))
  simpa [EnumType.words] using whole

theorem linesWords_definition (first : arena.ElementsFirst) {id : TypeId}
    (spelled : DefinitionWords arena (arena.node id) words) :
    LinesWords (definitionLines arena id) words := by
  rw [definitionLines]
  apply LinesWords.blank
  generalize arena.node id = node at spelled
  cases spelled with
  | enum ofType isName integral members =>
      exact linesWords_enum ofType isName integral members.names
  | struct ofType isName members => exact linesWords_record first rfl ofType isName members
  | union ofType isName members => exact linesWords_record first rfl ofType isName members

/-- Declarations are printed with the words that they are read from again. -/
theorem linesWords_definitions (first : arena.ElementsFirst) {ids : List TypeId}
    (spelled : DefinitionsWords arena ids words) :
    LinesWords (ids.flatMap (definitionLines arena)) words := by
  induction spelled with
  | nil => exact .nil
  | cons _ definition _ ih => exact (linesWords_definition first definition).append ih

end Declarations

end DriverIdl
