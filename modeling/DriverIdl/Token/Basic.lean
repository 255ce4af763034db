import DriverIdl.Text.Quoted

/-!
# Tokens

The words of the interface language: keywords, names, numbers, delimiters and comments, each with the
place where it starts.
-/

namespace DriverIdl

/-- The kinds of tokens. -/
inductive TokenKind where
  | boolean | byte | char | short | int | long | float | double | string | fileDescriptor | unsigned
  | list | map | sharedMemQueue
  | packageWord | importWord | sequenceable | interface | struct | enum | union
  | inWord | outWord | oneway | callback | full | lite
  | identifier | number
  | angleOpen | angleClose | braceOpen | braceClose | bracketOpen | bracketClose
  | parenOpen | parenClose | dot | comma | semicolon | colon | assign | minus
  | lineComment | blockComment
  | unknown | eof
  deriving DecidableEq, Inhabited

namespace TokenKind

/-- The kind of a reserved word. -/
def keyword? : String → Option TokenKind
  | "boolean" => some .boolean
  | "byte" => some .byte
  | "char" => some .char
  | "short" => some .short
  | "int" => some .int
  | "long" => some .long
  | "float" => some .float
  | "double" => some .double
  | "String" => some .string
  | "FileDescriptor" => some .fileDescriptor
  | "unsigned" => some .unsigned
  | "List" => some .list
  | "Map" => some .map
  | "SharedMemQueue" => some .sharedMemQueue
  | "package" => some .packageWord
  | "import" => some .importWord
  | "sequenceable" => some .sequenceable
  | "interface" => some .interface
  | "struct" => some .struct
  | "enum" => some .enum
  | "union" => some .union
  | "in" => some .inWord
  | "out" => some .outWord
  | "oneway" => some .oneway
  | "callback" => some .callback
  | "full" => some .full
  | "lite" => some .lite
  | _ => none

/-- The kind of a one-character delimiter. -/
def delimiter? : Char → Option TokenKind
  | '<' => some .angleOpen
  | '>' => some .angleClose
  | '\x7b' => some .braceOpen
  | '\x7d' => some .braceClose
  | '[' => some .bracketOpen
  | ']' => some .bracketClose
  | '(' => some .parenOpen
  | ')' => some .parenClose
  | '.' => some .dot
  | ',' => some .comma
  | ';' => some .semicolon
  | ':' => some .colon
  | '=' => some .assign
  | '-' => some .minus
  | _ => none

/-- The name of a kind. -/
def name : TokenKind → String
  | .boolean => "Boolean"
  | .byte => "Byte"
  | .char => "Char"
  | .short => "Short"
  | .int => "Int"
  | .long => "Long"
  | .float => "Float"
  | .double => "Double"
  | .string => "String"
  | .fileDescriptor => "FileDescriptor"
  | .unsigned => "Unsigned"
  | .list => "List"
  | .map => "Map"
  | .sharedMemQueue => "SharedMemQueue"
  | .packageWord => "Package"
  | .importWord => "Import"
  | .sequenceable => "Sequenceable"
  | .interface => "Interface"
  | .struct => "Struct"
  | .enum => "Enum"
  | .union => "Union"
  | .inWord => "In"
  | .outWord => "Out"
  | .oneway => "Oneway"
  | .callback => "Callback"
  | .full => "Full"
  | .lite => "Lite"
  | .identifier => "Identifier"
  | .number => "Number"
  | .angleOpen => "AngleOpen"
  | .angleClose => "AngleClose"
  | .braceOpen => "BraceOpen"
  | .braceClose => "BraceClose"
  | .bracketOpen => "BracketOpen"
  | .bracketClose => "BracketClose"
  | .parenOpen => "ParenOpen"
  | .parenClose => "ParenClose"
  | .dot => "Dot"
  | .comma => "Comma"
  | .semicolon => "Semicolon"
  | .colon => "Colon"
  | .assign => "Assign"
  | .minus => "Minus"
  | .lineComment => "LineComment"
  | .blockComment => "BlockComment"
  | .unknown => "Unknown"
  | .eof => "Eof"

/-- Whether tokens of the kind are comments. -/
def isComment : TokenKind → Bool
  | .lineComment | .blockComment => true
  | _ => false

/-- Whether the kind is a word that only starts a top-level statement. -/
def startsDeclaration : TokenKind → Bool
  | .packageWord | .importWord | .sequenceable | .interface | .struct | .enum | .union => true
  | _ => false

end TokenKind

/-- A place in a source text; lines and columns count from one. -/
structure Position where
  line : Nat := 1
  column : Nat := 1
  deriving DecidableEq, Inhabited

namespace Position

/-- The place behind a character. -/
def after (place : Position) (character : Char) : Position :=
  if character == '\n' then ⟨place.line + 1, 1⟩ else ⟨place.line, place.column + 1⟩

/-- The place behind a run of characters. -/
def afterAll (place : Position) (characters : List Char) : Position :=
  characters.foldl after place

end Position

/-- A word of a source text and the place where it starts. -/
structure Token where
  kind : TokenKind
  text : String
  place : Position
  deriving DecidableEq, Inhabited

namespace Token

/-- Whether the token is a comment. -/
def isComment (token : Token) : Bool := token.kind.isComment

/-- How messages name a token. -/
def describe (token : Token) : String :=
  if token.kind = .eof then "end of file" else Text.quote token.text

end Token

end DriverIdl
