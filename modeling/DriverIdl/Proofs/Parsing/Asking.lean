import DriverIdl.Parsing.SourceFile

/-!
# Which sizes a file asks for

The element of a queue must be plain data, so its size is computed as soon as the queue has been read,
in the middle of the file.  An `Asking` production goes with a production of the language: it runs like
that one, and tells besides which sizes a run asks for, each with the types as they stand at that
moment.  The productions below are those that read types, part for part; every other one asks for
nothing.
-/

namespace DriverIdl

/-- The size of an element is asked for while these are the types of the program. -/
structure SizeQuestion where
  arena : TypeArena
  element : TypeId

/-- A production with the sizes that its run from a state asks for, in order. -/
structure Asking (α : Type) where
  run : Parse α
  asked : ParseState → List SizeQuestion

namespace Asking

variable {α β σ : Type}

/-- A production that asks for nothing. -/
instance : MonadLift Parse Asking where
  monadLift production := ⟨production, fun _ => []⟩

/-- What a second part asks for behind what came of the first. -/
def askedBehind (second : α → Asking β) : EStateM.Result Resync ParseState α → List SizeQuestion
  | .ok value after => (second value).asked after
  | .error _ _ => []

/-- The second part is run, and asks, only behind a first part that answers. -/
instance : Monad Asking where
  pure value := ⟨pure value, fun _ => []⟩
  map change first := ⟨change <$> first.run, first.asked⟩
  bind first second :=
    { run := first.run >>= fun value => (second value).run
      asked := fun state => first.asked state ++ askedBehind second (first.run state) }

/-- The size of an element, which is asked for.  The productions below compute no size otherwise. -/
def fixedSize? (element : TypeId) : Asking (Option Nat) :=
  ⟨return (← Parse.types).fixedSize? element, fun state => [⟨state.program.types, element⟩]⟩

def attempt (production : Asking α) : Asking (Option α) :=
  ⟨Parse.attempt production.run, production.asked⟩

def loopWithin (step : σ → Asking (σ ⊕ α)) : Nat → σ → Asking α
  | 0, _ => (throw .resync : Parse α)
  | rounds + 1, state => do
    match ← step state with
    | .inl next => loopWithin step rounds next
    | .inr result => return result

def round (step : σ → Asking (σ ⊕ α)) (current : σ) : Asking (σ ⊕ α) := do
  (modify ParseState.counted : Parse Unit)
  step current

def loop (step : σ → Asking (σ ⊕ α)) (start : σ) : Asking α := do
  loopWithin (round step) ((← (get : Parse ParseState)).tokens.length + 1) start

section Types

def elementType (typeExpression : Asking TypeId) : Asking TypeId := do
  let place := (← Parse.peek).place
  let type ← typeExpression
  Parse.checkElement type place
  return type

def listType (typeExpression : Asking TypeId) : Asking TypeId := do
  let _ ← Parse.expect .angleOpen "\"<\""
  let element ← elementType typeExpression
  let _ ← Parse.expect .angleClose "\">\""
  Parse.intern (.list element) (.list element)

def mapType (typeExpression : Asking TypeId) : Asking TypeId := do
  let _ ← Parse.expect .angleOpen "\"<\""
  let key ← elementType typeExpression
  let _ ← Parse.expect .comma "\",\""
  let value ← elementType typeExpression
  let _ ← Parse.expect .angleClose "\">\""
  Parse.intern (.map key value) (.map key value)

/-- The only production that asks for a size itself. -/
def queueType (typeExpression : Asking TypeId) (place : Position) : Asking TypeId := do
  let _ ← Parse.expect .angleOpen "\"<\""
  let element ← elementType typeExpression
  let _ ← Parse.expect .angleClose "\">\""
  if (← fixedSize? element).isNone then
    Parse.fail place (.queueElement ((← Parse.types).spelling element))
  Parse.intern (.queue element) (.queue element)

def baseType (typeExpression : Asking TypeId) (token : Token) : Asking TypeId :=
  match token.kind with
  | .list => listType typeExpression
  | .map => mapType typeExpression
  | .sharedMemQueue => queueType typeExpression token.place
  | _ => Parse.baseType typeExpression.run token

def typeWithin (options : Options) : Nat → Asking TypeId
  | 0 => (throw .resync : Parse TypeId)
  | depth + 1 => do
    let token ← Parse.next
    let base ← baseType (typeWithin options depth) token
    let type ← Parse.arraySuffix base token.place
    Parse.checkSupport options type token.place
    return type

def typeExpression (options : Options) : Asking TypeId := do
  typeWithin options ((← (get : Parse ParseState)).tokens.length + 1)

end Types

section Declarations

def enumBase (options : Options) : Asking Primitive := do
  if ← Parse.eat .colon then
    let place := (← Parse.peek).place
    let type ← typeExpression options
    let arena ← Parse.types
    match (arena.primitive? type).filter Primitive.isIntegral with
    | some base => return base
    | none =>
      Parse.report place (.enumBase (arena.spelling type))
      return .int
  else
    return .int

def enumDeclaration (options : Options) (found : Attributes) (attributesPlace : Position) :
    Asking Unit := do
  let _ ← Parse.expect .enum "\"enum\""
  Parse.checkTypeAttributes "enum" found attributesPlace
  let name ← Parse.expect .identifier "an enum name"
  let fresh ← Parse.checkNewName name.text name.place
  let base ← enumBase options
  let _ ← Parse.expect .braceOpen "\"\x7b\""
  let members ← Parse.enumMembers base
  let _ ← Parse.expect .braceClose "\",\" or \"\x7d\""
  let _ ← Parse.eat .semicolon
  if members.isEmpty then Parse.report name.place (.emptyEnum name.text)
  if fresh then
    let unit := (← (get : Parse ParseState)).unit
    let _ ← Parse.declare name.text
      (.enum ⟨name.text, unit.namespaceId, unit.name, base, members, found, name.place⟩)

def recordMember (options : Options) (declaration : String) : Asking Member := do
  let place := (← Parse.peek).place
  let type ← typeExpression options
  match (← Parse.types).node type with
  | .interface declared => Parse.fail place (.interfaceMember declared.name declaration)
  | _ =>
    let name ← Parse.expect .identifier "a member name"
    let _ ← Parse.expect .semicolon "\";\""
    return ⟨name.text, type, name.place⟩

def bodyRound (item : Asking α) (faultOf? : List α → α → Option (Position × SourceFault))
    (items : List α) : Asking (List α ⊕ List α) := do
  if ← Parse.eat .braceClose then return .inr items
  Parse.checkBodyGoesOn (← Parse.peek)
  match ← attempt item with
  | none =>
    Parse.recoverStatement
    return .inl items
  | some found =>
    match faultOf? items found with
    | some (place, fault) =>
      Parse.report place fault
      return .inl items
    | none => return .inl (items ++ [found])

def bodyItems (item : Asking α) (faultOf? : List α → α → Option (Position × SourceFault)) :
    Asking (List α) :=
  loop (bodyRound item faultOf?) []

def recordMembers (options : Options) (declaration : String) : Asking (List Member) :=
  bodyItems (recordMember options declaration) fun members member =>
    if members.any fun known => known.name == member.name then
      some (member.place, .repeatedMember member.name)
    else none

def recordBody (options : Options) (declaration : String) (name : Token) (id : Option TypeId) :
    Asking Unit := do
  let _ ← Parse.expect .braceOpen "\"\x7b\""
  let members ← recordMembers options declaration
  let _ ← Parse.eat .semicolon
  if members.isEmpty then Parse.report name.place (.emptyRecord declaration name.text)
  if let some type := id then
    (modify fun state =>
      { state with program :=
        { state.program with types := state.program.types.update type (Parse.setMembers members) } } :
      Parse Unit)

def recordDeclaration (options : Options) (found : Attributes) (attributesPlace : Position)
    (isUnion : Bool) : Asking Unit := do
  let declaration := if isUnion then "union" else "struct"
  let _ ← Parse.expect (if isUnion then .union else .struct) declaration
  Parse.checkTypeAttributes declaration found attributesPlace
  let name ← Parse.expect .identifier "a type name"
  if isUnion && options.language == some .java then
    Parse.report name.place (.support (.unionInJava name.text))
  let fresh ← Parse.checkNewName name.text name.place
  let unit := (← (get : Parse ParseState)).unit
  let record : RecordType :=
    ⟨name.text, unit.namespaceId, unit.name, [], found, name.place⟩
  let id ←
    if fresh then
      some <$> Parse.declare name.text (if isUnion then .union record else .struct record)
    else pure none
  recordBody options declaration name id

end Declarations

section Interfaces

def parameter (options : Options) : Asking Parameter := do
  let way ← Parse.direction
  let type ← typeExpression options
  let name ← Parse.expect .identifier "a parameter name"
  Parse.checkInterfaceDirection type way name.place
  return ⟨name.text, way, type, name.place⟩

def parameterRound (options : Options) (known : List Parameter) :
    Asking (List Parameter ⊕ List Parameter) := do
  let found ← parameter options
  let extended ←
    if known.any fun earlier => earlier.name == found.name then do
      Parse.report found.place (.repeatedParameter found.name)
      pure known
    else pure (known ++ [found])
  let token ← Parse.next
  match token.kind with
  | .comma => return .inl extended
  | .parenClose => return .inr extended
  | _ => Parse.unexpected token "\",\" or \")\""

def parameters (options : Options) : Asking (List Parameter) := do
  if ← Parse.eat .parenClose then return []
  loop (parameterRound options) []

def method (options : Options) (interfaceAttributes : Attributes) : Asking Method := do
  let (found, attributesPlace) ← Parse.optionalAttributes
  if found.callback then Parse.report attributesPlace .callbackMethod
  let name ← Parse.expect .identifier "a method name"
  let _ ← Parse.expect .parenOpen "\"(\""
  let all ← parameters options
  let _ ← Parse.expect .semicolon "\";\""
  if interfaceAttributes.oneway || found.oneway then
    if let some result := all.find? Parameter.isOut then
      Parse.report result.place (.onewayResult name.text result.name)
  return ⟨name.text, found, all, name.place, false⟩

def methods (options : Options) (interfaceAttributes : Attributes) : Asking (List Method) :=
  bodyItems (method options interfaceAttributes) fun known found =>
    if found.name == Method.versionName then
      some (found.place, .reservedMethod Method.versionName)
    else if known.any fun earlier => earlier.name == found.name then
      some (found.place, .repeatedMethod found.name)
    else none

def interfaceDeclaration (options : Options) (found : Attributes) : Asking Unit := do
  let keyword ← Parse.expect .interface "\"interface\""
  let name ← Parse.expect .identifier "an interface name"
  let unit := (← (get : Parse ParseState)).unit
  let accepted := unit.interface.isNone
  if !accepted then Parse.report keyword.place .secondInterface
  if name.text != unit.name then Parse.report name.place (.interfaceFile name.text)
  if found.callback && options.language == some .java then
    Parse.report name.place (.support (.callbackInJava name.text))
  let _ ← Parse.expect .braceOpen "\"\x7b\""
  let declared ← methods options found
  let _ ← Parse.eat .semicolon
  if declared.isEmpty then Parse.report name.place (.emptyInterface name.text)
  if accepted then
    let id ← Parse.intern (.named unit.namespaceId name.text)
      (.interface ⟨name.text, unit.namespaceId, unit.name, found,
        declared ++ [Method.version name.place], false, name.place⟩)
    (modify fun state => { state with unit := { state.unit with interface := some id } } : Parse Unit)

end Interfaces

def declaration (options : Options) : Asking Unit := do
  let (found, attributesPlace) ← Parse.optionalAttributes
  let token ← Parse.peek
  match token.kind with
  | .enum => enumDeclaration options found attributesPlace
  | .struct => recordDeclaration options found attributesPlace false
  | .union => recordDeclaration options found attributesPlace true
  | .interface => interfaceDeclaration options found
  | .packageWord | .importWord | .sequenceable =>
    Parse.report token.place (.misplacedHeader token)
    let _ ← Parse.next
    Parse.recoverStatement
  | _ => Parse.unexpected token "a declaration"

def declarationRound (options : Options) (_ : Unit) : Asking (Unit ⊕ Unit) := do
  if (← Parse.peek).kind = .eof then return .inr ()
  if (← attempt (declaration options)).isNone then Parse.recoverDeclaration
  return .inl ()

def declarations (options : Options) : Asking Unit := loop (declarationRound options) ()

/-- A whole file and the sizes that it asks for. -/
def file (options : Options) : Asking Unit := do
  Parse.packageStatement options
  Parse.headerStatements
  declarations options

end Asking

end DriverIdl
