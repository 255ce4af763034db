import DriverIdl.Model.Primitive
import DriverIdl.Token.Basic
import Mathlib.Computability.Language
import Mathlib.Order.CompletePartialOrder

/-!
# The grammar of source files

Which sequences of tokens a source file may consist of, comments left out.  A text is a list of token
kinds, and every part of the grammar is a language of texts, built from single words by sequence,
choice and repetition.  Only types nest, so only they are an inductive definition.  Which types an
enum may be stored as depends on what the names of a program stand for, so these types are a parameter
of a file; `integerType` are those that have words of their own.
-/

/-- A set of texts, each a list of kinds of tokens. -/
abbrev TokenLanguage := Language DriverIdl.TokenKind

namespace DriverIdl

namespace Grammar

open Computability

/-- The text of one token. -/
def word (kind : TokenKind) : TokenLanguage := ({[kind]} : Set (List TokenKind))

/-- The texts of one token of some kinds. -/
def anyOf (kinds : List TokenKind) : TokenLanguage := {text | ∃ kind ∈ kinds, text = [kind]}

/-- A part that may be left out. -/
def optional (part : TokenLanguage) : TokenLanguage := 1 + part

/-- One or more items with commas between them. -/
def separated (item : TokenLanguage) : TokenLanguage := item * (word .comma * item)∗

/-- A dotted name. -/
def dotted : TokenLanguage := word .identifier * (word .dot * word .identifier)∗

/-- What `unsigned` may stand in front of. -/
def unsignedWords : List TokenKind := [.char, .byte, .short, .int, .long]

/-- The words that are types by themselves. -/
def primitiveWords : List TokenKind :=
  [.boolean, .byte, .char, .short, .int, .long, .float, .double, .string, .fileDescriptor]

/-- The brackets of an array. -/
def brackets : TokenLanguage := word .bracketOpen * word .bracketClose

mutual

/-- A type without the brackets behind it. -/
inductive BaseText : List TokenKind → Prop where
  | primitive {kind : TokenKind} (listed : kind ∈ primitiveWords) : BaseText [kind]
  | unsigned {kind : TokenKind} (listed : kind ∈ unsignedWords) : BaseText [.unsigned, kind]
  | list {element : List TokenKind} (isType : TypeText element) :
      BaseText ([.list, .angleOpen] ++ element ++ [.angleClose])
  | map {key value : List TokenKind} (isKey : TypeText key) (isValue : TypeText value) :
      BaseText ([.map, .angleOpen] ++ key ++ [.comma] ++ value ++ [.angleClose])
  | queue {element : List TokenKind} (isType : TypeText element) :
      BaseText ([.sharedMemQueue, .angleOpen] ++ element ++ [.angleClose])
  | named {text : List TokenKind} (isName : text ∈ dotted) : BaseText text

/-- A type with any number of array brackets. -/
inductive TypeText : List TokenKind → Prop where
  | suffixed {base suffix : List TokenKind} (isBase : BaseText base)
      (isSuffix : suffix ∈ brackets∗) : TypeText (base ++ suffix)

end

/-- The types. -/
def type : TokenLanguage := {text | TypeText text}

/-- The types with a word or a name of their own. -/
def plainType : TokenLanguage :=
  anyOf primitiveWords + word .unsigned * anyOf unsignedWords + dotted

/-- The primitive type that a text spells. -/
def primitive? : List TokenKind → Option Primitive
  | [.boolean] => some .boolean
  | [.byte] | [.char] => some .byte
  | [.short] => some .short
  | [.int] => some .int
  | [.long] => some .long
  | [.float] => some .float
  | [.double] => some .double
  | [.string] => some .string
  | [.fileDescriptor] => some .fileDescriptor
  | [.unsigned, .char] | [.unsigned, .byte] => some .uchar
  | [.unsigned, .short] => some .ushort
  | [.unsigned, .int] => some .uint
  | [.unsigned, .long] => some .ulong
  | _ => none

/-- The integer types. -/
def integerType : TokenLanguage :=
  anyOf [.byte, .char, .short, .int, .long] + word .unsigned * anyOf unsignedWords

/-- The words that may stand in brackets in front of a declaration or method. -/
def attributeWords : List TokenKind :=
  [.oneway, .callback, .full, .lite, .inWord, .outWord, .identifier]

/-- Attributes in brackets. -/
def attributes : TokenLanguage :=
  word .bracketOpen * separated (anyOf attributeWords) * word .bracketClose

/-- The value of an enum member. -/
def enumValue : TokenLanguage := optional (word .minus) * word .number + word .identifier

/-- A member of an enum. -/
def enumMember : TokenLanguage := word .identifier * optional (word .assign * enumValue)

/-- The base of an enum. -/
def enumBase (integers : TokenLanguage) : TokenLanguage := optional (word .colon * integers)

/-- The members of an enum; a comma may follow the last one. -/
def enumMembers : TokenLanguage := optional (separated enumMember * optional (word .comma))

/-- An enum. -/
def enumDeclaration (integers : TokenLanguage) : TokenLanguage :=
  word .enum * word .identifier * enumBase integers * word .braceOpen * enumMembers * word .braceClose *
    optional (word .semicolon)

/-- A member of a struct or union. -/
def recordMember : TokenLanguage := type * word .identifier * word .semicolon

/-- A struct or union. -/
def recordDeclaration (keyword : TokenKind) : TokenLanguage :=
  word keyword * word .identifier * word .braceOpen * recordMember∗ * word .braceClose *
    optional (word .semicolon)

/-- The direction of a parameter. -/
def direction : TokenLanguage :=
  word .bracketOpen * anyOf [.inWord, .outWord] * word .bracketClose

/-- A parameter of a method. -/
def parameter : TokenLanguage := direction * type * word .identifier

/-- A method. -/
def method : TokenLanguage :=
  optional attributes * word .identifier * word .parenOpen * optional (separated parameter) *
    word .parenClose * word .semicolon

/-- An interface. -/
def interfaceDeclaration : TokenLanguage :=
  word .interface * word .identifier * word .braceOpen * method∗ * word .braceClose *
    optional (word .semicolon)

/-- What stands behind the attributes of a declaration. -/
def definition (integers : TokenLanguage) : TokenLanguage :=
  enumDeclaration integers + recordDeclaration .struct + recordDeclaration .union + interfaceDeclaration

/-- A declaration. -/
def declaration (integers : TokenLanguage) : TokenLanguage :=
  optional attributes * definition integers

/-- A word, a dotted name and a semicolon. -/
def announcement (keyword : TokenKind) : TokenLanguage :=
  word keyword * dotted * word .semicolon

/-- What stands between the package and the declarations. -/
def headerStatement : TokenLanguage := announcement .importWord + announcement .sequenceable

/-- A source file, in which enums are stored as some types. -/
def file (integers : TokenLanguage) : TokenLanguage :=
  announcement .packageWord * headerStatement∗ * (declaration integers)∗

section Membership

variable {kind : TokenKind} {kinds : List TokenKind} {text : List TokenKind}
  {part item : TokenLanguage}

@[simp] theorem mem_word : text ∈ word kind ↔ text = [kind] := Iff.rfl

@[simp] theorem mem_anyOf : text ∈ anyOf kinds ↔ ∃ kind ∈ kinds, text = [kind] := Iff.rfl

@[simp] theorem mem_optional : text ∈ optional part ↔ text = [] ∨ text ∈ part := Iff.rfl

@[simp] theorem mem_type : text ∈ type ↔ TypeText text := Iff.rfl

theorem anyOf_singleton (kind : TokenKind) : anyOf [kind] = word kind := by
  ext text
  simp

theorem one_le_optional (part : TokenLanguage) : 1 ≤ optional part := fun _ isNone => .inl isNone

theorem le_optional (part : TokenLanguage) : part ≤ optional part := fun _ ofPart => .inr ofPart

theorem nil_mem_mul {first second : TokenLanguage} :
    [] ∈ first * second ↔ [] ∈ first ∧ [] ∈ second := by
  rw [Language.mem_mul]
  constructor
  · rintro ⟨start, isFirst, rest, isSecond, empty⟩
    obtain ⟨rfl, rfl⟩ := List.append_eq_nil_iff.mp empty
    exact ⟨isFirst, isSecond⟩
  · rintro ⟨isFirst, isSecond⟩
    exact ⟨[], isFirst, [], isSecond, rfl⟩

theorem cons_mem_word_mul (rest : text ∈ part) : kind :: text ∈ word kind * part :=
  Language.append_mem_mul (mem_word.mpr rfl) rest

theorem append_mem_kstar {more : List TokenKind} (items : text ∈ item∗) (last : more ∈ item) :
    text ++ more ∈ item∗ :=
  (kstar_mul_le_kstar : item∗ * item ≤ item∗) (Language.append_mem_mul items last)

/-- Items that each have their comma behind them, but for the last one. -/
theorem separated_eq (item : TokenLanguage) :
    separated item = (item * word .comma)∗ * item := by
  apply le_antisymm
  · apply mul_kstar_le
    · exact le_mul_of_one_le_left' one_le_kstar
    · calc
        (item * word .comma)∗ * item * (word .comma * item) =
            (item * word .comma)∗ * (item * word .comma) * item := by simp only [mul_assoc]
        _ ≤ (item * word .comma)∗ * item := by
            gcongr
            exact kstar_mul_le_kstar
  · apply kstar_mul_le
    · exact le_mul_of_one_le_right' one_le_kstar
    · calc
        item * word .comma * (item * (word .comma * item)∗) =
            item * (word .comma * item * (word .comma * item)∗) := by simp only [mul_assoc]
        _ ≤ item * (word .comma * item)∗ := by
            gcongr
            exact mul_kstar_le_kstar

/-- Items that each have their comma behind them, and perhaps a last one without. -/
theorem optional_separated_eq (item : TokenLanguage) :
    optional (separated item * optional (word .comma)) =
      (item * word .comma)∗ * optional item := by
  have unrolled : 1 + (item * word .comma)∗ * (item * word .comma) = (item * word .comma)∗ :=
    one_add_kstar_mul
  calc
    optional (separated item * optional (word .comma)) =
        1 + ((item * word .comma)∗ * item + (item * word .comma)∗ * item * word .comma) := by
      rw [separated_eq, optional, optional, mul_add, mul_one]
    _ = 1 + (item * word .comma)∗ * (item * word .comma) + (item * word .comma)∗ * item := by
      rw [mul_assoc _ item, add_comm ((item * word .comma)∗ * item), add_assoc]
    _ = (item * word .comma)∗ * optional item := by
      rw [unrolled, optional, mul_add, mul_one]

end Membership

end Grammar

end DriverIdl
