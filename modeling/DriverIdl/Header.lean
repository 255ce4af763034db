import DriverIdl.Options
import DriverIdl.Token.Lexer

/-!
# Headers of source files

The header of a file is its package and the units it imports.  It is read ahead of the file itself,
to find the files that a run needs and the order in which they are compiled.  Whatever is malformed
behind the package is left for the parser to report.
-/

namespace DriverIdl

/-- What a file declares about its place among the others. -/
structure Header where
  path : Path
  package : String
  name : String
  imports : List String
  deriving DecidableEq, Inhabited

namespace Header

/-- Why a file has no header. -/
inductive Fault where
  | fileName (path : Path)
  | noPackage (path : Path)
  | malformedPackage (path : Path)
  deriving DecidableEq, Inhabited

/-- The sentence that tells a fault. -/
def Fault.message : Fault → String
  | .fileName path => "invalid file name " ++ path.text
  | .noPackage path => path.text ++ ": missing package declaration"
  | .malformedPackage path => path.text ++ ": malformed package declaration"

/-- The name by which other files import the unit. -/
def fullName (header : Header) : String := Package.fullName header.package header.name

/-- Reads what continues a dotted name: a dot and an identifier, any number of times.  A dot without
an identifier behind it is consumed and spoils the name. -/
def dottedTail (name : String) : List Token → Option String × List Token
  | ⟨.dot, _, _⟩ :: ⟨.identifier, segment, _⟩ :: rest => dottedTail (name ++ "." ++ segment) rest
  | ⟨.dot, _, _⟩ :: rest => (none, rest)
  | tokens => (some name, tokens)

/-- Reads a dotted name; a name that does not start well consumes nothing. -/
def dottedName : List Token → Option String × List Token
  | ⟨.identifier, first, _⟩ :: rest => dottedTail first rest
  | tokens => (none, tokens)

/-- What follows the next semicolon. -/
def afterSemicolon : List Token → List Token
  | [] => []
  | token :: rest => if token.kind = .semicolon then rest else afterSemicolon rest

theorem length_dottedTail_le (name : String) (tokens : List Token) :
    (dottedTail name tokens).2.length ≤ tokens.length := by
  fun_induction dottedTail name tokens with
  | case1 => simp only [List.length_cons]; omega
  | case2 => simp
  | case3 => simp

theorem length_dottedName_le (tokens : List Token) :
    (dottedName tokens).2.length ≤ tokens.length := by
  unfold dottedName
  split
  · rename_i first _ rest
    have shorter := length_dottedTail_le first rest
    simp only [List.length_cons]
    omega
  · simp

theorem length_afterSemicolon_le (tokens : List Token) :
    (afterSemicolon tokens).length ≤ tokens.length := by
  induction tokens with
  | nil => simp [afterSemicolon]
  | cons token rest ih =>
    simp only [afterSemicolon]
    split
    · simp
    · simp only [List.length_cons]
      omega

/-- Collects the imports of the statements between the package and the first declaration, each
once and in order.  A malformed import is skipped up to its semicolon. -/
def collectImports (known : List String) (tokens : List Token) : List String :=
  match tokens with
  | [] => known
  | token :: rest =>
    if token.kind = .importWord then
      match _parts : dottedName rest with
      | (some name, ⟨.semicolon, _, _⟩ :: others) =>
        collectImports (if known.contains name then known else known ++ [name]) others
      | (_, others) => collectImports known (afterSemicolon others)
    else if token.kind = .sequenceable then collectImports known (afterSemicolon (token :: rest))
    else known
termination_by tokens.length
decreasing_by
  · have shorter := length_dottedName_le rest
    rw [_parts] at shorter
    simp only [List.length_cons] at shorter ⊢
    omega
  · have shorter := length_dottedName_le rest
    have skipped := length_afterSemicolon_le others
    rw [_parts] at shorter
    simp only [List.length_cons] at shorter ⊢
    omega
  · rename_i isSequenceable
    have skipped := length_afterSemicolon_le rest
    rw [afterSemicolon, if_neg (by rw [isSequenceable]; decide)]
    simp only [List.length_cons]
    omega

/-- The header of a source text.  Comments do not count. -/
def ofSource (path : Path) (source : String) : Except Fault Header :=
  match path.stem? with
  | none => .error (.fileName path)
  | some name =>
    match (TokenStream.ofSource source).tokens.filter fun token => !token.isComment with
    | ⟨.packageWord, _, _⟩ :: rest =>
      match dottedName rest with
      | (some package, ⟨.semicolon, _, _⟩ :: statements) =>
        .ok ⟨path, package, name, collectImports [] statements⟩
      | _ => .error (.malformedPackage path)
    | _ => .error (.noPackage path)

/-- A header as it is listed: the unit, its file and a line for each import. -/
def text (header : Header) : String :=
  Text.quote header.fullName ++ " (" ++ header.path.text ++ ")" ++
    String.join (header.imports.map fun name => "\n  import " ++ name)

end Header

end DriverIdl
