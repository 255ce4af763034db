import DriverIdl.Diagnostic
import DriverIdl.Model.CompiledUnit
import DriverIdl.Token.Lexer

/-!
# State of parsing

A source file is parsed against the program that earlier files built.  An error never ends the file:
it is recorded, and parsing goes on behind the statement or declaration that holds it.  A production
that has recorded an error and cannot go on leaves with `Resync`; every change made until then stays.
-/

namespace DriverIdl

/-- The mark of a production that cannot go on; its error has been recorded. -/
inductive Resync where
  | resync
  deriving DecidableEq, Inhabited

/-- Tokens ahead, the program and unit built so far, and what has been reported.  Nothing looks at the
number of rounds that loops have gone. -/
structure ParseState where
  tokens : List Token
  finish : Position
  program : Program
  unit : CompiledUnit
  diagnostics : List Diagnostic
  errors : Nat := 0
  sequenceables : List (String × CompiledUnit) := []
  rounds : Nat := 0
  deriving Inhabited

/-- The state after one more round of a loop has begun. -/
def ParseState.counted (state : ParseState) : ParseState :=
  { state with rounds := state.rounds + 1 }

/-- A production of the language. -/
abbrev Parse := EStateM Resync ParseState

namespace Parse

/-- Repeats a step until it answers a result, at most `rounds` times. -/
def loopWithin {σ α : Type} (step : σ → Parse (σ ⊕ α)) : Nat → σ → Parse α
  | 0, _ => throw .resync
  | rounds + 1, state => do
    match ← step state with
    | .inl next => loopWithin step rounds next
    | .inr result => return result

/-- A step of a loop, which counts the round that it makes. -/
def round {σ α : Type} (step : σ → Parse (σ ⊕ α)) (current : σ) : Parse (σ ⊕ α) := do
  modify ParseState.counted
  step current

/-- Repeats a step until it answers a result.  Every step that does not end the loop takes a token,
so there are at most as many rounds as tokens, and one more. -/
def loop {σ α : Type} (step : σ → Parse (σ ⊕ α)) (start : σ) : Parse α := do
  loopWithin (round step) ((← get).tokens.length + 1) start

/-- Records an error of the file. -/
def report (place : Position) (fault : SourceFault) : Parse Unit :=
  modify fun state =>
    { state with
      errors := state.errors + 1
      diagnostics := state.diagnostics ++ [⟨state.unit.path, place, fault⟩] }

/-- Records an error and leaves the production. -/
def fail {α : Type} (place : Position) (fault : SourceFault) : Parse α := do
  report place fault
  throw .resync

/-- The fault of a token that stands where something else is expected. -/
def unexpectedFault (token : Token) (expected : String) : SourceFault :=
  if token.kind = .unknown then
    if ['/', '*'].isPrefixOf token.text.toList then .unterminatedComment
    else .unrecognizedCharacter token.text
  else .expected expected token

/-- Leaves the production at a token that stands where something else is expected. -/
def unexpected {α : Type} (token : Token) (expected : String) : Parse α :=
  fail token.place (unexpectedFault token expected)

/-- The token ahead; the end of the file repeats forever. -/
def peek : Parse Token := do
  let state ← get
  return state.tokens.headD ⟨.eof, "", state.finish⟩

/-- Takes the token ahead. -/
def next : Parse Token := do
  let token ← peek
  modify fun state => { state with tokens := state.tokens.tail }
  return token

/-- Takes the token ahead if it is of a kind. -/
def eat (kind : TokenKind) : Parse Bool := do
  if (← peek).kind = kind then
    let _ ← next
    return true
  else
    return false

/-- Takes a token of a kind; any other token is reported and stays. -/
def expect (kind : TokenKind) (expected : String) : Parse Token := do
  let token ← peek
  if token.kind = kind then next else unexpected token expected

/-- Reads one more segment of a dotted name. -/
def nameRound (name : String) : Parse (String ⊕ String) := do
  if ← eat .dot then
    let segment ← expect .identifier "an identifier after \".\""
    return .inl (name ++ "." ++ segment.text)
  else
    return .inr name

/-- Reads the segments that continue a dotted name. -/
def dottedTail (first : String) : Parse String := loop nameRound first

/-- Reads a dotted name. -/
def dottedName (expected : String) : Parse (String × Position) := do
  let first ← expect .identifier expected
  let name ← dottedTail first.text
  return (name, first.place)

/-- Skips one token of a broken statement. -/
def skipStatementRound (_ : Unit) : Parse (Unit ⊕ Unit) := do
  match (← get).tokens with
  | [] => return .inr ()
  | token :: _ =>
    if token.kind = .braceClose || token.kind.startsDeclaration then
      return .inr ()
    else
      let _ ← next
      if token.kind = .semicolon then return .inr () else return .inl ()

/-- Goes on behind a broken statement: behind its semicolon, or at the brace or word that cannot belong
to it. -/
def recoverStatement : Parse Unit := loop skipStatementRound ()

/-- Skips one token of a broken declaration, inside as many braces as its depth says. -/
def skipDeclarationRound (depth : Nat) : Parse (Nat ⊕ Unit) := do
  match (← get).tokens with
  | [] => return .inr ()
  | token :: _ =>
    if depth = 0 && (token.kind.startsDeclaration || token.kind = .bracketOpen) then
      return .inr ()
    else
      let _ ← next
      if token.kind = .braceOpen then return .inl (depth + 1)
      else if token.kind = .braceClose then
        if depth ≤ 1 then
          let _ ← eat .semicolon
          return .inr ()
        else return .inl (depth - 1)
      else return .inl depth

/-- Goes on behind a broken declaration, braced bodies included.  Outside of braces a word or bracket
that starts another declaration ends it. -/
def recoverDeclaration : Parse Unit := loop skipDeclarationRound 0

/-- Runs a production and answers nothing if it cannot go on. -/
def attempt {α : Type} (production : Parse α) : Parse (Option α) := fun state =>
  match production state with
  | .ok result after => .ok (some result) after
  | .error _ after => .ok none after

/-- The type with a key; it is added on first use. -/
def intern (key : TypeKey) (type : TypeNode) : Parse TypeId :=
  modifyGet fun state =>
    let (id, unit, types) := state.unit.intern state.program.types key type
    (id, { state with unit := unit, program := { state.program with types := types } })

/-- The types of the program. -/
def types : Parse TypeArena := return (← get).program.types

end Parse

end DriverIdl
