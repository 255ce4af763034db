import DriverIdl.Proofs.Grammar.Basic

/-!
# The words of texts

Which words the texts of a part start with, and which words they are made of.  The first decides what
may follow a part that has no end mark of its own; the second, where recovery stops.
-/

namespace DriverIdl

namespace Grammar

open Computability

variable {part more : TokenLanguage} {kind : TokenKind} {kinds others : List TokenKind}
  {text rest : List TokenKind}

/-- The texts of a part have a first word, and it is one of some words. -/
def StartsIn (kinds : List TokenKind) (part : TokenLanguage) : Prop :=
  ∀ text ∈ part, ∃ kind ∈ kinds, text.head? = some kind

namespace StartsIn

theorem word (listed : kind ∈ kinds) : StartsIn kinds (word kind) := by
  rintro text rfl
  exact ⟨kind, listed, rfl⟩

theorem ofWord (kind : TokenKind) : StartsIn [kind] (Grammar.word kind) :=
  word (List.mem_singleton_self kind)

theorem anyOf (listed : ∀ kind ∈ others, kind ∈ kinds) : StartsIn kinds (anyOf others) := by
  rintro text ⟨kind, isOther, rfl⟩
  exact ⟨kind, listed kind isOther, rfl⟩

theorem mul (starts : StartsIn kinds part) : StartsIn kinds (part * more) := by
  intro text ofWhole
  obtain ⟨early, ofPart, late, -, rfl⟩ := Language.mem_mul.mp ofWhole
  obtain ⟨kind, listed, isHead⟩ := starts early ofPart
  exact ⟨kind, listed, by rw [List.head?_append, isHead]; rfl⟩

theorem add (first : StartsIn kinds part) (second : StartsIn kinds more) :
    StartsIn kinds (part + more) := by
  rintro text (ofPart | ofMore)
  · exact first text ofPart
  · exact second text ofMore

theorem optional_mul (first : StartsIn kinds part) (second : StartsIn kinds more) :
    StartsIn kinds (optional part * more) := by
  rw [optional, add_mul, one_mul]
  exact second.add first.mul

theorem nil_notMem (starts : StartsIn kinds part) : [] ∉ part := by
  intro empty
  obtain ⟨kind, -, impossible⟩ := starts [] empty
  cases impossible

end StartsIn

/-- A text does not go on with some words. -/
def Avoids (kinds rest : List TokenKind) : Prop := rest.headD .eof ∉ kinds

instance : Decidable (Avoids kinds rest) := inferInstanceAs (Decidable (_ ∉ _))

theorem Avoids.mono (avoids : Avoids kinds rest) (fewer : ∀ kind ∈ others, kind ∈ kinds) :
    Avoids others rest :=
  fun listed => avoids (fewer _ listed)

theorem StartsIn.headD_mem (starts : StartsIn kinds part) (ofPart : text ∈ part) :
    (text ++ rest).headD .eof ∈ kinds := by
  obtain ⟨kind, listed, isHead⟩ := starts text ofPart
  rw [List.headD_eq_head?_getD, List.head?_append, isHead]
  exact listed

/-- A part with other first words may follow what must not go on with some words. -/
theorem StartsIn.avoids {follow : List TokenKind → Prop} (starts : StartsIn kinds part)
    (apart : ∀ kind ∈ kinds, kind ∉ others) :
    ∀ text ∈ part, ∀ rest, follow rest → Avoids others (text ++ rest) :=
  fun _ ofPart _ _ => apart _ (starts.headD_mem ofPart)

theorem avoids_of_one {avoided : List TokenKind} :
    ∀ text ∈ (1 : TokenLanguage), ∀ rest, Avoids avoided rest → Avoids avoided (text ++ rest) := by
  rintro text rfl rest avoids
  exact avoids

theorem StartsIn.avoids_kstar {avoided : List TokenKind} (starts : StartsIn kinds part)
    (apart : ∀ kind ∈ kinds, kind ∉ avoided) :
    ∀ text ∈ part∗, ∀ rest, Avoids avoided rest → Avoids avoided (text ++ rest) := by
  have unrolled : 1 + part * part∗ = part∗ := one_add_mul_kstar
  intro text ofItems rest avoids
  rw [← unrolled] at ofItems
  rcases ofItems with ofNone | ofSome
  · exact avoids_of_one text ofNone rest avoids
  · exact starts.mul.avoids apart text ofSome rest avoids

/-- Texts of words that pass a test. -/
def madeOf (test : TokenKind → Bool) : TokenLanguage :=
  {text | ∀ kind ∈ text, test kind = true}

section MadeOf

variable {test : TokenKind → Bool}

theorem mem_madeOf : text ∈ madeOf test ↔ ∀ kind ∈ text, test kind = true := Iff.rfl

theorem append_mem_madeOf (first : text ∈ madeOf test) (second : rest ∈ madeOf test) :
    text ++ rest ∈ madeOf test :=
  fun kind listed => (List.mem_append.mp listed).elim (first kind) (second kind)

theorem mem_madeOf_of_forall_mem (all : ∀ kind ∈ kinds, test kind = true)
    (inside : ∀ kind ∈ text, kind ∈ kinds) : text ∈ madeOf test :=
  fun kind listed => all kind (inside kind listed)

theorem mem_madeOf_of_suffix {left : List TokenKind} (whole : text ∈ madeOf test)
    (suffix : left <:+ text) : left ∈ madeOf test :=
  fun kind listed => whole kind (suffix.subset listed)

theorem word_le_madeOf (passes : test kind = true) : word kind ≤ madeOf test := by
  rintro text rfl
  exact mem_madeOf.mpr (by simpa using passes)

theorem anyOf_le_madeOf (pass : ∀ kind ∈ kinds, test kind = true) : anyOf kinds ≤ madeOf test := by
  rintro text ⟨kind, listed, rfl⟩
  exact mem_madeOf.mpr (by simpa using pass kind listed)

theorem mul_le_madeOf (first : part ≤ madeOf test) (second : more ≤ madeOf test) :
    part * more ≤ madeOf test := by
  intro text ofWhole
  obtain ⟨early, ofPart, late, ofMore, rfl⟩ := Language.mem_mul.mp ofWhole
  exact append_mem_madeOf (first ofPart) (second ofMore)

theorem add_le_madeOf (first : part ≤ madeOf test) (second : more ≤ madeOf test) :
    part + more ≤ madeOf test := by
  rintro text (ofPart | ofMore)
  · exact first ofPart
  · exact second ofMore

theorem one_le_madeOf : 1 ≤ madeOf test := by
  rintro text rfl
  exact mem_madeOf.mpr (by simp)

theorem optional_le_madeOf (all : part ≤ madeOf test) : optional part ≤ madeOf test :=
  add_le_madeOf one_le_madeOf all

theorem kstar_le_madeOf (all : part ≤ madeOf test) : part∗ ≤ madeOf test := by
  apply kstar_le_of_mul_le_right
  · exact one_le_madeOf
  · exact mul_le_madeOf all le_rfl

theorem separated_le_madeOf (all : part ≤ madeOf test) (comma : test .comma = true) :
    separated part ≤ madeOf test :=
  mul_le_madeOf all (kstar_le_madeOf (mul_le_madeOf (word_le_madeOf comma) all))

end MadeOf

section Types

/-- The types without brackets behind them. -/
def base : TokenLanguage := {text | BaseText text}

theorem type_eq : type = base * brackets∗ := by
  apply le_antisymm
  · rintro text (⟨isBase, isSuffix⟩ : TypeText text)
    exact Language.append_mem_mul isBase isSuffix
  · intro text ofWhole
    obtain ⟨start, isBase, suffix, isSuffix, rfl⟩ := Language.mem_mul.mp ofWhole
    exact TypeText.suffixed isBase isSuffix

/-- A type in angle brackets behind a word. -/
def container (keyword : TokenKind) (content : TokenLanguage) : TokenLanguage :=
  word keyword * (word .angleOpen * (content * word .angleClose))

theorem base_le : base ≤ anyOf primitiveWords + word .unsigned * anyOf unsignedWords +
    container .list type + container .map (type * (word .comma * type)) +
    container .sharedMemQueue type + dotted := by
  rintro text (isBase : BaseText text)
  cases isBase with
  | primitive listed => exact .inl (.inl (.inl (.inl (.inl ⟨_, listed, rfl⟩))))
  | @unsigned kind listed =>
      have isWord : [kind] ∈ anyOf unsignedWords := ⟨kind, listed, rfl⟩
      exact .inl (.inl (.inl (.inl (.inr (cons_mem_word_mul isWord)))))
  | list isType =>
      exact .inl (.inl (.inl (.inr (cons_mem_word_mul (cons_mem_word_mul
        (Language.append_mem_mul isType rfl))))))
  | @map key value isKey isValue =>
      have isContent : key ++ [.comma] ++ value ∈ type * (word .comma * type) := by
        rw [List.append_assoc]
        exact Language.append_mem_mul isKey (cons_mem_word_mul isValue)
      exact .inl (.inl (.inr (cons_mem_word_mul (cons_mem_word_mul
        (Language.append_mem_mul isContent rfl)))))
  | queue isType =>
      exact .inl (.inr (cons_mem_word_mul (cons_mem_word_mul
        (Language.append_mem_mul isType rfl))))
  | named isName => exact .inr isName

theorem plainType_le_type : plainType ≤ type := by
  have isType {text : List TokenKind} (isBase : BaseText text) : text ∈ type := by
    have whole := TypeText.suffixed isBase (Language.nil_mem_kstar brackets)
    rwa [List.append_nil] at whole
  rintro text ((⟨kind, listed, rfl⟩ | isUnsigned) | isName)
  · exact isType (.primitive listed)
  · obtain ⟨_, rfl, _, ⟨kind, listed, rfl⟩, rfl⟩ := Language.mem_mul.mp isUnsigned
    exact isType (.unsigned listed)
  · exact isType (.named isName)

/-- The words that a type starts with. -/
def typeStarts : List TokenKind :=
  primitiveWords ++ [.unsigned, .list, .map, .sharedMemQueue, .identifier]

theorem startsIn_type : StartsIn typeStarts type := by
  have starts : StartsIn typeStarts base := by
    intro text isBase
    have alternatives : StartsIn typeStarts (anyOf primitiveWords +
        word .unsigned * anyOf unsignedWords + container .list type +
        container .map (type * (word .comma * type)) + container .sharedMemQueue type + dotted) := by
      refine .add (.add (.add (.add (.add ?_ ?_) ?_) ?_) ?_) ?_
      · exact .anyOf (by decide)
      all_goals exact .mul (.word (by decide))
    exact alternatives text (base_le isBase)
  rw [type_eq]
  exact starts.mul

/-- The words that types without other types in them are made of. -/
def plainWords : List TokenKind := primitiveWords ++ [.unsigned, .identifier, .dot]

theorem plainType_le_madeOf {test : TokenKind → Bool} (pass : ∀ kind ∈ plainWords, test kind = true) :
    plainType ≤ madeOf test := by
  have words {kinds : List TokenKind} (inside : ∀ kind ∈ kinds, kind ∈ plainWords) :
      anyOf kinds ≤ madeOf test := anyOf_le_madeOf fun kind listed => pass kind (inside kind listed)
  have word {kind : TokenKind} (listed : kind ∈ plainWords) : word kind ≤ madeOf test :=
    word_le_madeOf (pass kind listed)
  apply add_le_madeOf (add_le_madeOf (words (by decide)) _) _
  · exact mul_le_madeOf (word (by decide)) (words (by decide))
  · exact mul_le_madeOf (word (by decide))
      (kstar_le_madeOf (mul_le_madeOf (word (by decide)) (word (by decide))))

/-- The words that types are made of. -/
def typeWords : List TokenKind :=
  typeStarts ++ [.angleOpen, .angleClose, .comma, .bracketOpen, .bracketClose, .dot]

section

variable {test : TokenKind → Bool} (pass : ∀ kind ∈ typeWords, test kind = true)

include pass

theorem dotted_le_madeOf : dotted ≤ madeOf test := by
  have name : word .identifier ≤ madeOf test := word_le_madeOf (pass _ (by decide))
  have dot : word .dot ≤ madeOf test := word_le_madeOf (pass _ (by decide))
  exact mul_le_madeOf name (kstar_le_madeOf (mul_le_madeOf dot name))

theorem brackets_le_madeOf : brackets ≤ madeOf test :=
  mul_le_madeOf (word_le_madeOf (pass _ (by decide))) (word_le_madeOf (pass _ (by decide)))

mutual

theorem mem_madeOf_of_baseText : ∀ {text : List TokenKind}, BaseText text → text ∈ madeOf test
  | _, .primitive listed => by
      have inside : ∀ kind ∈ primitiveWords, kind ∈ typeWords := by decide
      exact word_le_madeOf (pass _ (inside _ listed)) rfl
  | _, .unsigned listed => by
      have inside : ∀ kind ∈ unsignedWords, kind ∈ typeWords := by decide
      exact append_mem_madeOf (word_le_madeOf (pass .unsigned (by decide)) rfl)
        (word_le_madeOf (pass _ (inside _ listed)) rfl)
  | _, .list isType | _, .queue isType => by
      have content := mem_madeOf_of_typeText isType
      refine append_mem_madeOf (append_mem_madeOf ?_ content) ?_
      all_goals exact mem_madeOf_of_forall_mem pass (by decide)
  | _, .map isKey isValue => by
      have key := mem_madeOf_of_typeText isKey
      have value := mem_madeOf_of_typeText isValue
      refine append_mem_madeOf (append_mem_madeOf (append_mem_madeOf (append_mem_madeOf ?_ key) ?_)
        value) ?_
      all_goals exact mem_madeOf_of_forall_mem pass (by decide)
  | _, .named isName => dotted_le_madeOf pass isName

theorem mem_madeOf_of_typeText : ∀ {text : List TokenKind}, TypeText text → text ∈ madeOf test
  | _, .suffixed isBase isSuffix => by
      have suffix := kstar_le_madeOf (brackets_le_madeOf pass) isSuffix
      exact append_mem_madeOf (mem_madeOf_of_baseText isBase) suffix

end

theorem type_le_madeOf : type ≤ madeOf test := fun _ isType => mem_madeOf_of_typeText pass isType

end

end Types

end Grammar

end DriverIdl
