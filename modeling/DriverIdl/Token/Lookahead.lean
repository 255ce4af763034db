import DriverIdl.Token.Lexer

/-!
# Reading with lookahead

`Lexer` reads the tokens of a text one at a time, as they are asked for.  It keeps its place in the
text and a slot for one token that was looked at and not taken.  Taking and looking both turn to the
slot first, and both may drop comments.
-/

namespace DriverIdl

/-- The text that is still to be read, its place, and the token that was looked at. -/
structure Lexer where
  ahead : List Char
  place : Position := {}
  slot : Option Token := none
  deriving Inhabited

namespace Lexer

/-- The lexer at the start of a text. -/
def ofSource (source : String) : Lexer := { ahead := source.toList }

/-- Reads a token of the text, comments included; the end of the text is read again and again. -/
def scan (lexer : Lexer) : Token × Lexer :=
  let start := lexer.place.afterAll (lexer.ahead.takeWhile Text.isBlank)
  match lexer.ahead.dropWhile Text.isBlank with
  | [] => (⟨.eof, "", start⟩, { lexer with ahead := [], place := start })
  | first :: rest =>
    let lexeme := Lexeme.take first rest
    (⟨lexeme.1, String.ofList lexeme.2.1, start⟩,
      { lexer with ahead := lexeme.2.2, place := start.afterAll lexeme.2.1 })

/-- The token in the slot, or one that is read if the slot is empty. -/
def take (lexer : Lexer) : Token × Lexer :=
  match lexer.slot with
  | some token => (token, { lexer with slot := none })
  | none => lexer.scan

/-- What is left to be taken: characters, and the token in the slot. -/
def size (lexer : Lexer) : Nat := lexer.ahead.length + lexer.slot.toList.length

/-- Whatever is no end of the text has been taken from it. -/
theorem size_take_lt {lexer : Lexer} (other : lexer.take.1.kind ≠ .eof) :
    lexer.take.2.size < lexer.size := by
  unfold take at other ⊢
  split
  · rename_i token full
    simp [size, full]
  · rename_i empty
    rw [empty] at other
    simp only [scan] at other ⊢
    split
    · rename_i blank
      simp [blank] at other
    · rename_i first rest found
      have taken := Lexeme.length_take_le first rest
      have blanks := Lexeme.length_dropWhile_le Text.isBlank lexer.ahead
      rw [found, List.length_cons] at blanks
      simp only [size, empty, Option.toList_none, List.length_nil, Nat.add_zero]
      omega

theorem kind_ne_eof_of_isComment {token : Token} (isComment : token.isComment = true) :
    token.kind ≠ .eof := by
  intro isEnd
  simp [Token.isComment, isEnd, TokenKind.isComment] at isComment

/-- Takes the next token. -/
def next (lexer : Lexer) (skippingComments : Bool) : Token × Lexer :=
  if _dropped : skippingComments = true ∧ lexer.take.1.isComment = true then
    next lexer.take.2 skippingComments
  else lexer.take
termination_by lexer.size
decreasing_by exact size_take_lt (kind_ne_eof_of_isComment _dropped.2)

/-- Looks at the next token and keeps it for the next call.  Looking past comments drops them. -/
def peek (lexer : Lexer) (skippingComments : Bool) : Token × Lexer :=
  let seen :=
    if skippingComments && lexer.take.1.isComment then lexer.take.2.next true else lexer.take
  (seen.1, { seen.2 with slot := some seen.1 })

end Lexer

end DriverIdl
