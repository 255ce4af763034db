import DriverIdl.Header
import DriverIdl.Options
import Mathlib.Data.List.Basic

/-!
# Names in source files

Names reach the program as identifiers joined by dots.  An identifier of the lexer is a run of word
characters, so the segments of a joined name are the identifiers it was joined from, none of them
empty, and a package can be told from its segments.

A header statement is a word, a dotted name and a semicolon.  `Announces` says that a run of tokens
holds one, without saying how it is parsed.
-/

namespace DriverIdl

/-- A text of word characters that is not empty. -/
def Text.IsWord (text : String) : Prop :=
  text.toList ≠ [] ∧ ∀ character ∈ text.toList, isWordChar character = true

theorem Text.IsWord.undotted {word : String} (isWord : IsWord word) : '.' ∉ word.toList := by
  intro inside
  exact absurd (isWord.2 '.' inside) (by decide)

namespace Package

/-- A name whose pieces between dots are words. -/
def Dotted (name : String) : Prop :=
  ∀ piece ∈ Text.pieces '.' name.toList, Text.IsWord (String.ofList piece)

theorem pieces_join (left right : List Char) :
    Text.pieces '.' (left ++ '.' :: right) = Text.pieces '.' left ++ Text.pieces '.' right := by
  simp only [Text.pieces, List.splitOn_eq_splitOnP]
  exact List.splitOnP_append_cons left right (by simp)

theorem dotted_join {left right : String} :
    Dotted (left ++ "." ++ right) ↔ Dotted left ∧ Dotted right := by
  have spelled : (left ++ "." ++ right).toList = left.toList ++ '.' :: right.toList := by simp
  simp only [Dotted, spelled, pieces_join, List.mem_append]
  exact ⟨fun all => ⟨fun piece listed => all piece (.inl listed),
      fun piece listed => all piece (.inr listed)⟩,
    fun ⟨ofLeft, ofRight⟩ piece listed => listed.elim (ofLeft piece) (ofRight piece)⟩

/-- A name without dots is dotted if it is a word. -/
theorem dotted_iff_isWord {name : String} (undotted : '.' ∉ name.toList) :
    Dotted name ↔ Text.IsWord name := by
  have single : Text.pieces '.' name.toList = [name.toList] := List.splitOn_eq_singleton undotted
  simp [Dotted, single]

theorem dotted_of_isWord {word : String} (isWord : Text.IsWord word) : Dotted word :=
  (dotted_iff_isWord isWord.undotted).mpr isWord

theorem Dotted.isWord {name segment : String} (dotted : Dotted name)
    (listed : segment ∈ segments name) : Text.IsWord segment := by
  obtain ⟨piece, isPiece, rfl⟩ := List.mem_map.mp listed
  exact dotted piece (List.mem_filter.mp isPiece).1

/-- The pieces of a dotted name are its segments, none of them empty. -/
theorem pieces_of_dotted {name : String} (dotted : Dotted name) :
    Text.pieces '.' name.toList = (segments name).map String.toList := by
  have kept : (Text.pieces '.' name.toList).filter (fun segment => !segment.isEmpty) =
      Text.pieces '.' name.toList := by
    apply List.filter_eq_self.mpr
    intro piece listed
    simpa using (dotted piece listed).1
  simp [segments, kept, Function.comp_def]

/-- The segments of a dotted name spell it again. -/
theorem intercalate_segments {name : String} (dotted : Dotted name) :
    String.intercalate "." (segments name) = name := by
  apply String.toList_injective
  have whole : List.intercalate ['.'] (Text.pieces '.' name.toList) = name.toList :=
    List.intercalate_splitOn '.'
  rw [String.toList_intercalate, ← pieces_of_dotted dotted]
  exact whole

theorem splitFullName?_eq_some {full package name : String}
    (split : splitFullName? full = some (package, name)) : fullName package name = full := by
  simp only [splitFullName?] at split
  have whole : full.toList.reverse.takeWhile (· != '.') ++ full.toList.reverse.dropWhile (· != '.') =
      full.toList.reverse := List.takeWhile_append_dropWhile
  have stops := List.head?_dropWhile_not (· != '.') full.toList.reverse
  generalize full.toList.reverse.takeWhile (· != '.') = last at split whole
  generalize full.toList.reverse.dropWhile (· != '.') = others at split whole stops
  cases others with
  | nil => simp at split
  | cons dot rest =>
      obtain rfl : dot = '.' := by simpa using stops
      simp only at split
      split at split
      · simp at split
      · obtain ⟨rfl, rfl⟩ : String.ofList rest.reverse = package ∧ String.ofList last.reverse = name := by
          simpa using split
        apply String.toList_injective
        rw [← List.reverse_reverse full.toList, ← whole]
        simp [fullName]

/-- The short name behind a package is a word. -/
theorem isWord_of_splitFullName? {full package name : String} (dotted : Dotted full)
    (split : splitFullName? full = some (package, name)) : Text.IsWord name := by
  have undotted : '.' ∉ name.toList := by
    simp only [splitFullName?] at split
    split at split
    · simp at split
    · split at split
      · simp at split
      · obtain ⟨-, rfl⟩ := by simpa using split
        intro inside
        simp only [String.toList_ofList, List.mem_reverse] at inside
        simpa using List.all_eq_true.mp List.all_takeWhile '.' inside
  rw [← splitFullName?_eq_some split] at dotted
  exact (dotted_iff_isWord undotted).mp (dotted_join.mp dotted).2

end Package

namespace Token

/-- What the lexer promises of a token: it is not the end of the text, and an identifier is a
word. -/
structure WellSpelled (token : Token) : Prop where
  notEnd : token.kind ≠ .eof
  word : token.kind = .identifier → Text.IsWord token.text

theorem keyword?_getD_ne_eof (word : String) :
    (TokenKind.keyword? word).getD .identifier ≠ .eof := by
  unfold TokenKind.keyword?
  split <;> simp

theorem delimiter?_getD_ne (character : Char) :
    (TokenKind.delimiter? character).getD .unknown ≠ .eof ∧
      (TokenKind.delimiter? character).getD .unknown ≠ .identifier := by
  unfold TokenKind.delimiter?
  split <;> simp

theorem isWordChar_of_startsName {character : Char} (starts : Lexeme.startsName character = true) :
    isWordChar character = true := by
  simp only [Lexeme.startsName, isWordChar, Char.isAlphanum, Bool.or_eq_true] at starts ⊢
  exact starts.imp_left .inl

/-- Only a lexeme of word characters is an identifier. -/
theorem wellSpelled_take (first : Char) (rest : List Char) (place : Position) :
    WellSpelled ⟨(Lexeme.take first rest).1, String.ofList (Lexeme.take first rest).2.1, place⟩ := by
  unfold Lexeme.take
  split
  · rename_i starts
    refine ⟨keyword?_getD_ne_eof _, fun _ => ⟨by simp, fun character inside => ?_⟩⟩
    simp only [String.toList_ofList, List.mem_cons] at inside
    rcases inside with rfl | continues
    · exact isWordChar_of_startsName starts
    · exact List.all_eq_true.mp List.all_takeWhile character continues
  · split
    · exact ⟨by simp, by simp⟩
    · split
      · exact ⟨by simp, by simp⟩
      · split
        · split
          · exact ⟨by simp, by simp⟩
          · exact ⟨by simp, by simp⟩
        · obtain ⟨notEnd, notName⟩ := delimiter?_getD_ne first
          exact ⟨notEnd, fun isName => absurd isName notName⟩

theorem wellSpelled_scanFrom (place : Position) (source : List Char) :
    ∀ token ∈ (scanFrom place source).1, token.WellSpelled := by
  fun_induction scanFrom place source with
  | case1 place source blank => simp
  | case2 place source first rest found start lexeme tokens finish scanned ih =>
      intro token listed
      rcases List.mem_cons.mp listed with rfl | later
      · exact wellSpelled_take first rest start
      · rw [scanned] at ih
        exact ih token later

end Token

theorem TokenStream.wellSpelled_ofSource (source : String) :
    ∀ token ∈ (ofSource source).tokens, token.WellSpelled :=
  Token.wellSpelled_scanFrom ⟨1, 1⟩ source.toList

namespace Header

/-- What continues a name is dots and identifiers, so the name stays a dotted one. -/
theorem dottedTail_eq_some {first name : String} {tokens rest : List Token}
    (read : dottedTail first tokens = (some name, rest)) :
    ∃ taken, tokens = taken ++ rest ∧
      (∀ token ∈ taken, token.kind = .dot ∨ token.kind = .identifier) ∧
      (Package.Dotted first → (∀ token ∈ tokens, token.WellSpelled) → Package.Dotted name) := by
  fun_induction dottedTail first tokens with
  | case1 first dotText dotPlace segment place others ih =>
      obtain ⟨taken, split, kinds, dotted⟩ := ih read
      refine ⟨⟨.dot, dotText, dotPlace⟩ :: ⟨.identifier, segment, place⟩ :: taken, ?_, ?_, ?_⟩
      · rw [split, List.cons_append, List.cons_append]
      · simpa using kinds
      · intro firstDotted spelled
        have word := spelled ⟨.identifier, segment, place⟩ (by simp)
        exact dotted
          (Package.dotted_join.mpr
            ⟨firstDotted, Package.dotted_of_isWord (word.word rfl)⟩)
          fun token listed => spelled token (by simp [listed])
  | case2 => simp at read
  | case3 first tokens =>
      obtain ⟨rfl, rfl⟩ : first = name ∧ tokens = rest := by simpa using read
      exact ⟨[], rfl, by simp, fun dotted _ => dotted⟩

theorem dottedName_eq_some {name : String} {tokens rest : List Token}
    (read : dottedName tokens = (some name, rest)) :
    ∃ taken, tokens = taken ++ rest ∧
      (∀ token ∈ taken, token.kind = .dot ∨ token.kind = .identifier) ∧
      ((∀ token ∈ tokens, token.WellSpelled) → Package.Dotted name) := by
  unfold dottedName at read
  split at read
  · rename_i first place others
    obtain ⟨taken, split, kinds, dotted⟩ := dottedTail_eq_some read
    refine ⟨⟨.identifier, first, place⟩ :: taken, by rw [split, List.cons_append], ?_, ?_⟩
    · simpa using kinds
    · intro spelled
      have word := spelled ⟨.identifier, first, place⟩ (by simp)
      exact dotted (Package.dotted_of_isWord (word.word rfl))
        fun token listed => spelled token (by simp [listed])
  · simp at read

end Header

/-- The tokens of a text, comments aside. -/
def sourceTokens (source : String) : List Token :=
  (TokenStream.ofSource source).tokens.filter fun token => !token.isComment

/-- Somewhere in the tokens a word of a kind, a dotted name and a semicolon follow each other. -/
def Announces (keyword : TokenKind) (name : String) (tokens : List Token) : Prop :=
  ∃ word rest semicolon others, word :: rest <:+ tokens ∧ word.kind = keyword ∧
    Header.dottedName rest = (some name, semicolon :: others) ∧ semicolon.kind = .semicolon

theorem Announces.of_suffix {keyword : TokenKind} {name : String} {inner outer : List Token}
    (announced : Announces keyword name inner) (suffix : inner <:+ outer) :
    Announces keyword name outer := by
  obtain ⟨word, rest, semicolon, others, within, statement⟩ := announced
  exact ⟨word, rest, semicolon, others, within.trans suffix, statement⟩

theorem Announces.exists_mem {keyword : TokenKind} {name : String} {tokens : List Token}
    (announced : Announces keyword name tokens) : ∃ token ∈ tokens, token.kind = keyword := by
  obtain ⟨word, rest, -, -, within, isWord, -⟩ := announced
  exact ⟨word, within.subset (by simp), isWord⟩

/-- The declarations that tokens spell: each word that introduces an enum, struct, union or
interface with the text behind it. -/
def spelledDeclarations : List Token → List (TokenKind × String)
  | [] => []
  | word :: rest =>
    if word.kind ∈ [TokenKind.enum, .struct, .union, .interface] then
      (word.kind, (rest.head?.map Token.text).getD "") :: spelledDeclarations rest
    else spelledDeclarations rest

/-- Words that start nothing spell no declaration. -/
theorem spelledDeclarations_append {taken rest : List Token}
    (plain : ∀ token ∈ taken, token.kind.startsDeclaration = false) :
    spelledDeclarations (taken ++ rest) = spelledDeclarations rest := by
  induction taken with
  | nil => rfl
  | cons word others ih =>
      have first := plain word (by simp)
      have notDeclaring : word.kind ∉ [TokenKind.enum, .struct, .union, .interface] := by
        generalize word.kind = kind at first
        simp only [List.mem_cons, List.not_mem_nil, or_false]
        rintro (rfl | rfl | rfl | rfl) <;> simp [TokenKind.startsDeclaration] at first
      rw [List.cons_append, spelledDeclarations, if_neg notDeclaring,
        ih fun token listed => plain token (by simp [listed])]

end DriverIdl
