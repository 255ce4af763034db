import DriverIdl.Proofs.Dump.Replaying
import Mathlib.Data.List.TakeWhile

/-!
# Names that are read again

A name is a word that the lexer takes for one: it is no keyword.  A dotted name is spelled by the words
of its segments with dots between them, and whoever reads these words has the name again.
-/

namespace DriverIdl

/-- A text that the lexer takes for a name. -/
structure Text.IsName (text : String) : Prop where
  identifier : Package.isIdentifier text.toList = true
  unreserved : TokenKind.keyword? text = none

theorem Text.IsName.isWord {text : String} (isName : IsName text) : IsWord text := by
  have spelled := isName.identifier
  cases letters : text.toList with
  | nil => simp [letters, Package.isIdentifier] at spelled
  | cons first rest =>
      rw [letters, Package.isIdentifier, Bool.and_eq_true, List.all_eq_true] at spelled
      refine ⟨by simp [letters], fun character listed => ?_⟩
      rw [letters] at listed
      rcases List.mem_cons.mp listed with rfl | later
      · exact Token.isWordChar_of_startsName spelled.1
      · exact spelled.2 character later

/-- What the lexer takes for an identifier is a name. -/
def Token.Named (token : Token) : Prop := token.kind = .identifier → Text.IsName token.text

theorem Token.named_take (first : Char) (rest : List Char) (place : Position) :
    Named ⟨(Lexeme.take first rest).1, String.ofList (Lexeme.take first rest).2.1, place⟩ := by
  intro isName
  unfold Lexeme.take at isName ⊢
  split
  · rename_i starts
    rw [if_pos starts] at isName
    constructor
    · rw [String.toList_ofList, Package.isIdentifier, Bool.and_eq_true]
      exact ⟨starts, List.all_takeWhile⟩
    · cases reserved : TokenKind.keyword? (String.ofList (first :: rest.takeWhile Lexeme.continuesName)) with
      | none => rfl
      | some kind =>
          simp only [reserved, Option.getD_some] at isName
          subst isName
          unfold TokenKind.keyword? at reserved
          split at reserved <;> cases reserved
  · rename_i noName
    rw [if_neg noName] at isName
    split at isName
    · cases isName
    · split at isName
      · cases isName
      · split at isName
        · split at isName <;> cases isName
        · exact absurd isName (delimiter?_getD_ne first).2

theorem Token.named_scanFrom (place : Position) (source : List Char) :
    ∀ token ∈ (scanFrom place source).1, token.Named := by
  fun_induction scanFrom place source with
  | case1 place source blank => simp
  | case2 place source first rest found start lexeme tokens finish scanned ih =>
      intro token listed
      rcases List.mem_cons.mp listed with rfl | later
      · exact named_take first rest start
      · rw [scanned] at ih
        exact ih token later

/-- The words of a dotted name. -/
inductive NameWords : String → List Word → Prop where
  | single {name : String} (isName : Text.IsName name) : NameWords name [(.identifier, name)]
  | more {front name : String} {words : List Word} (before : NameWords front words)
      (isName : Text.IsName name) :
      NameWords (front ++ "." ++ name) (words ++ [(.dot, "."), (.identifier, name)])

namespace NameWords

variable {name : String} {words rest : List Word} {tokens : List Token}

/-- A name that is not split is one word, and the last word of any other is its short name. -/
theorem cases_split (spelled : NameWords name words) :
    (Text.IsName name ∧ Package.splitFullName? name = none) ∨
      ∃ package short, Text.IsName short ∧
        Package.splitFullName? name = some (package, short) := by
  cases spelled with
  | single isName =>
      refine .inl ⟨isName, ?_⟩
      have undotted : ∀ character ∈ name.toList.reverse, (character != '.') = true := by
        intro character listed
        rw [bne_iff_ne]
        rintro rfl
        exact isName.isWord.undotted (List.mem_reverse.mp listed)
      have nothing : name.toList.reverse.dropWhile (· != '.') = [] :=
        List.dropWhile_eq_nil_iff.mpr undotted
      simp only [Package.splitFullName?, nothing]
  | @more front short _ before isName =>
      have nonempty : front.toList ≠ [] := by
        cases before with
        | single isName => exact isName.isWord.1
        | more => simp
      exact .inr ⟨front, short, isName, Package.splitFullName?_join nonempty isName.isWord⟩

/-- The words start with an identifier, and behind it the name is read as far as the words go. -/
theorem reads (spelled : NameWords name words) :
    ∃ first others, words = (.identifier, first) :: others ∧
      ∀ (tokens : List Token) (rest : List Word), tokens.map Token.word = others ++ rest →
        ∃ left : List Token, left.map Token.word = rest ∧
          Header.dottedTail first tokens = Header.dottedTail name left := by
  induction spelled with
  | single isName => exact ⟨_, [], rfl, fun tokens rest ahead => ⟨tokens, ahead, rfl⟩⟩
  | @more front name _ _ isName ih =>
      obtain ⟨first, others, rfl, reads⟩ := ih
      refine ⟨first, others ++ [(.dot, "."), (.identifier, name)], by simp, ?_⟩
      intro tokens rest ahead
      rw [List.append_assoc] at ahead
      obtain ⟨left, leftWords, same⟩ := reads tokens _ ahead
      obtain ⟨⟨dotKind, dotText, dotPlace⟩, later, rfl, isDot, laterWords⟩ :=
        List.map_eq_cons_iff.mp leftWords
      obtain ⟨⟨nameKind, nameText, namePlace⟩, last, rfl, isWord, lastWords⟩ :=
        List.map_eq_cons_iff.mp laterWords
      obtain rfl : dotKind = .dot := congrArg Prod.fst isDot
      obtain rfl : nameKind = .identifier := congrArg Prod.fst isWord
      obtain rfl : nameText = name := congrArg Prod.snd isWord
      exact ⟨last, lastWords, same⟩

end NameWords

/-- A name ends where no dot follows. -/
theorem Header.dottedTail_of_apart {tokens : List Token} (first : String)
    (apart : Apart [.dot] (tokens.map Token.word)) :
    dottedTail first tokens = (some first, tokens) := by
  cases tokens with
  | nil => rfl
  | cons token others =>
      have different : token.kind ≠ .dot := by simpa [Apart, Token.word] using apart
      rw [dottedTail]
      · rintro text place segment otherPlace rest ⟨rfl, -⟩
        exact different rfl
      · rintro text place rest ⟨rfl, -⟩
        exact different rfl

/-- Whatever is read behind a dotted name of names is one. -/
theorem Header.nameWords_of_dottedTail {first name : String} {words : List Word}
    {tokens rest : List Token} (read : dottedTail first tokens = (some name, rest))
    (spelled : NameWords first words) (named : ∀ token ∈ tokens, token.Named) :
    ∃ others, NameWords name others := by
  fun_induction dottedTail first tokens generalizing words with
  | case1 first dotText dotPlace segment place others ih =>
      have isName := named ⟨.identifier, segment, place⟩ (by simp) rfl
      exact ih read (spelled.more isName) fun token listed => named token (by simp [listed])
  | case2 => simp at read
  | case3 first tokens =>
      obtain ⟨rfl, -⟩ : first = name ∧ tokens = rest := by simpa using read
      exact ⟨words, spelled⟩

theorem Header.nameWords_of_dottedName {name : String} {tokens rest : List Token}
    (read : dottedName tokens = (some name, rest)) (named : ∀ token ∈ tokens, token.Named) :
    ∃ words, NameWords name words := by
  unfold dottedName at read
  split at read
  · rename_i first place others
    exact nameWords_of_dottedTail read (.single (named ⟨.identifier, first, place⟩ (by simp) rfl))
      fun token listed => named token (by simp [listed])
  · simp at read

end DriverIdl
