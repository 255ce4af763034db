import DriverIdl.Proofs.Grammar.Soundness

/-!
# What the methods of an interface are spelled by

The grammar knows the kinds of tokens only.  Here the names are looked at too: a run without an
error over the body of an interface cuts its tokens into one text for each method that it answers,
in order, up to the brace that closes the body.  No method is left out and none comes twice.
-/

namespace DriverIdl

open Grammar

/-- The tokens of a method: its attributes, its name, and its parameters in parentheses. -/
def MethodText (text : List Token) (method : Method) : Prop :=
  ∃ attributes parameters,
    text = attributes ++ ⟨.identifier, method.name, method.place⟩ :: parameters ∧
      attributes.map Token.kind ∈ optional Grammar.attributes ∧
      parameters.map Token.kind ∈ word .parenOpen *
        (optional (separated parameter) * word .parenClose * word .semicolon)

/-- The tokens of an interface, somewhere in a file: the methods that are declared stand between
braces behind its name, in order. -/
def InterfaceText (tokens : List Token) (declared : InterfaceType) : Prop :=
  ∃ early keyword opening texts closing late,
    tokens = early ++ keyword :: ⟨.identifier, declared.name, declared.place⟩ :: opening ::
        (texts.flatten ++ closing :: late) ∧
      keyword.kind = .interface ∧ opening.kind = .braceOpen ∧ closing.kind = .braceClose ∧
      List.Forall₂ MethodText texts declared.userMethods

namespace Parse

open ParseState

variable {α : Type} {mark : Nat} {known : Prop} {before : ParseState} {options : Options}

/-- The tokens that a clean run takes are derived by its part of the grammar. -/
theorem Ensures.spelled {production : Parse α} {post : α → ParseState → Prop}
    {part : TokenLanguage} (ensures : Ensures mark known before production post)
    (derives : Derives before production part) :
    Ensures mark known before production fun _ after =>
      ∃ taken, before.tokens = taken ++ after.tokens ∧ taken.map Token.kind ∈ part := by
  intro inside
  cases run : production before with
  | error fault after => exact ensures.error run inside
  | ok value after =>
      obtain ⟨advanced, ensured⟩ := ensures.ok run inside
      refine ⟨advanced, fun clean assumed sound => ⟨(ensured clean assumed sound).1, ?_⟩⟩
      have unchanged : after.errors = before.errors := by rw [clean, advanced.clean clean]
      exact (derives.ok run).2 unchanged

theorem Ensures.methodText (interfaceAttributes : Attributes) :
    Ensures mark known before (method options interfaceAttributes) fun found after =>
      ∃ text, before.tokens = text ++ after.tokens ∧ MethodText text found := by
  apply bind ((@Reading.optionalAttributes _ _ _ options).spelled Spells.optionalAttributes)
  rintro ⟨found, place⟩ attributed _ _
  apply reportIf
  intro accepted _
  apply bind (expect (by decide))
  intro name named _ _
  apply bind (expect (by decide))
  intro opening opened _ _
  apply bind (Reading.parameters.spelled Spells.parameters)
  intro all read _ _
  apply bind (expect (by decide))
  intro closing closed _ _
  apply under (∃ text, before.tokens = text ++ closed.tokens ∧
    MethodText text ⟨name.text, found, all, name.place, false⟩)
  · apply ite
    · intro _
      simp only
      split
      · exact bindReport fun _ => never
      · exact pure fun spelled _ => spelled
    · exact fun _ => pure fun spelled _ => spelled
  · rintro ⟨⟨⟨⟨⟨⟨-, attributes, attributesSplit, isAttributes⟩, rfl, -⟩, takesName, isName⟩,
      takesOpening, isOpening⟩, parameters, parametersSplit, isParameters⟩, takesClosing, isClosing⟩
    have isToken : name = ⟨.identifier, name.text, name.place⟩ := by rw [← isName]
    refine ⟨attributes ++ name :: opening :: (parameters ++ [closing]), ?_, attributes,
      opening :: (parameters ++ [closing]), by rw [← isToken], isAttributes, ?_⟩
    · rw [attributesSplit, takesName.tokens, takesOpening.tokens, parametersSplit,
        takesClosing.tokens]
      simp
    · rw [List.map_cons, isOpening, List.map_append, List.map_singleton, isClosing]
      exact cons_mem_word_mul (Language.append_mem_mul isParameters rfl)

/-- The body of an interface is made of the texts of its methods and a brace. -/
theorem Ensures.methodTexts (interfaceAttributes : Attributes) :
    Ensures mark known before (methods options interfaceAttributes) fun found after =>
      ∃ texts closing, before.tokens = texts.flatten ++ closing :: after.tokens ∧
        closing.kind = .braceClose ∧ List.Forall₂ MethodText texts found := by
  let readSoFar (found : List Method) (state : ParseState) : Prop :=
    ∃ texts, before.tokens = texts.flatten ++ state.tokens ∧ List.Forall₂ MethodText texts found
  have item (found : List Method) (state : ParseState) :
      Ensures mark (known ∧ readSoFar found state) state (method options interfaceAttributes)
        fun next after =>
          readSoFar (found ++ [next]) after ∧ after.tokens.length < state.tokens.length := by
    apply (methodText interfaceAttributes).imp
    rintro next after ⟨-, texts, split, spelled⟩ - ⟨text, taken, isText⟩
    refine ⟨⟨texts ++ [text], ?_, List.rel_append spelled (.cons isText .nil)⟩, ?_⟩
    · rw [split, taken]
      simp
    · obtain ⟨attributes, parameters, rfl, -⟩ := isText
      rw [taken]
      simp only [List.length_append, List.length_cons]
      omega
  apply (bodyItems readSoFar (fun _ _ => ⟨[], rfl, .nil⟩) (fun _ _ => id) item).imp
  rintro found after - - ⟨state, closing, ⟨texts, split, spelled⟩, takes, isBrace⟩
  exact ⟨texts, closing, by rw [split, takes.tokens], isBrace, spelled⟩

/-- Methods have names of their own, and none has the name of the version method. -/
theorem distinct_of_methods {interfaceAttributes : Attributes} {found : List Method}
    {after : ParseState} (run : methods options interfaceAttributes before = .ok found after) :
    (found.map Method.name).Nodup ∧ ∀ method ∈ found, method.name ≠ Method.versionName := by
  apply bodyItems_ok (fun known => (known.map Method.name).Nodup ∧
    ∀ method ∈ known, method.name ≠ Method.versionName) ⟨List.nodup_nil, by simp⟩ _ run
  rintro known next ⟨distinct, unreserved⟩ faultless
  have isFree : next.name ≠ Method.versionName := by
    intro reserved
    simp [reserved] at faultless
  refine ⟨nodup_map_append distinct ?_, ?_⟩
  · intro repeated
    simp [isFree, repeated] at faultless
  · intro method listed
    rcases List.mem_append.mp listed with earlier | last
    · exact unreserved method earlier
    · obtain rfl := List.mem_singleton.mp last
      exact isFree

end Parse

end DriverIdl
