import DriverIdl.Token.Basic

/-!
# Reading tokens

`Token.scan` cuts a source text into its tokens, comments included, and `TokenStream` walks along
them with one token of lookahead.  Blanks separate tokens; every other character belongs to exactly
one token.
-/

namespace DriverIdl

namespace Lexeme

/-- Characters that start a name. -/
def startsName (character : Char) : Bool := character.isAlpha || character == '_'

/-- Characters that continue a name. -/
def continuesName (character : Char) : Bool := character.isAlphanum || character == '_'

/-- Splits behind the first end mark of a block comment, if there is one. -/
def splitComment : List Char → Option (List Char × List Char)
  | [] => none
  | '*' :: '/' :: rest => some (['*', '/'], rest)
  | character :: rest => (splitComment rest).map fun (body, after) => (character :: body, after)

/-- The kind and characters of the lexeme at the start of a text, and what follows it. -/
def take (first : Char) (rest : List Char) : TokenKind × List Char × List Char :=
  if startsName first then
    let name := first :: rest.takeWhile continuesName
    ((TokenKind.keyword? (String.ofList name)).getD .identifier, name, rest.dropWhile continuesName)
  else if first.isDigit then
    (.number, first :: rest.takeWhile Char.isAlphanum, rest.dropWhile Char.isAlphanum)
  else if first == '/' && rest.head? == some '/' then
    (.lineComment, first :: rest.takeWhile (· != '\n'), rest.dropWhile (· != '\n'))
  else if first == '/' && rest.head? == some '*' then
    match splitComment (rest.drop 1) with
    | some (body, after) => (.blockComment, '/' :: '*' :: body, after)
    | none => (.unknown, first :: rest, [])
  else
    ((TokenKind.delimiter? first).getD .unknown, [first], rest)

theorem length_dropWhile_le {α : Type} (test : α → Bool) (items : List α) :
    (items.dropWhile test).length ≤ items.length :=
  (List.dropWhile_sublist test).length_le

theorem length_splitComment {text body after : List Char}
    (split : splitComment text = some (body, after)) : after.length ≤ text.length := by
  fun_induction splitComment text generalizing body with
  | case1 => simp at split
  | case2 rest =>
    obtain ⟨rfl, rfl⟩ := by simpa using split
    simp only [List.length_cons]
    omega
  | case3 character rest _ ih =>
    obtain ⟨⟨innerBody, innerAfter⟩, inner, same⟩ := Option.map_eq_some_iff.1 split
    obtain ⟨rfl, rfl⟩ := by simpa using same
    have shorter := ih inner
    simp only [List.length_cons]
    omega

/-- A lexeme takes at least its first character. -/
theorem length_take_le (first : Char) (rest : List Char) :
    (take first rest).2.2.length ≤ rest.length := by
  unfold take
  split
  · exact length_dropWhile_le _ _
  · split
    · exact length_dropWhile_le _ _
    · split
      · exact length_dropWhile_le _ _
      · split
        · split
          · rename_i body after found
            have shorter := length_splitComment found
            simp only [List.length_drop] at shorter
            simp only
            omega
          · simp
        · simp

end Lexeme

/-- The tokens of a text that starts at a place, and the place where the text ends. -/
def Token.scanFrom (place : Position) (source : List Char) : List Token × Position :=
  match _found : source.dropWhile Text.isBlank with
  | [] => ([], place.afterAll source)
  | first :: rest =>
    let start := place.afterAll (source.takeWhile Text.isBlank)
    let lexeme := Lexeme.take first rest
    let (tokens, finish) := scanFrom (start.afterAll lexeme.2.1) lexeme.2.2
    (⟨lexeme.1, String.ofList lexeme.2.1, start⟩ :: tokens, finish)
termination_by source.length
decreasing_by
  have taken := Lexeme.length_take_le first rest
  have blanks := Lexeme.length_dropWhile_le Text.isBlank source
  rw [_found, List.length_cons] at blanks
  omega

/-- The tokens of a source text that are still ahead, and the place where the text ends. -/
structure TokenStream where
  tokens : List Token
  finish : Position
  deriving Inhabited

namespace TokenStream

/-- All tokens of a source text. -/
def ofSource (source : String) : TokenStream :=
  let (tokens, finish) := Token.scanFrom ⟨1, 1⟩ source.toList
  ⟨tokens, finish⟩

/-- The token that stands for the end of the text. -/
def endToken (stream : TokenStream) : Token := ⟨.eof, "", stream.finish⟩

/-- The stream from its first token that is no comment. -/
def skipComments (stream : TokenStream) : TokenStream :=
  { stream with tokens := stream.tokens.dropWhile Token.isComment }

/-- The token ahead; the end of the text repeats forever. -/
def head (stream : TokenStream) : Token :=
  stream.tokens.headD stream.endToken

/-- The stream behind the token ahead. -/
def tail (stream : TokenStream) : TokenStream :=
  { stream with tokens := stream.tokens.tail }

/-- Looks at the token ahead.  Looking past comments drops them. -/
def peek (stream : TokenStream) (skippingComments : Bool) : Token × TokenStream :=
  let ahead := if skippingComments then stream.skipComments else stream
  (ahead.head, ahead)

/-- Takes the token ahead. -/
def next (stream : TokenStream) (skippingComments : Bool) : Token × TokenStream :=
  let ahead := if skippingComments then stream.skipComments else stream
  (ahead.head, ahead.tail)

/-- All tokens ahead with the end of the text behind them. -/
def toList (stream : TokenStream) (skippingComments : Bool) : List Token :=
  let kept :=
    if skippingComments then stream.tokens.filter fun token => !token.isComment
    else stream.tokens
  kept ++ [stream.endToken]

end TokenStream

end DriverIdl
