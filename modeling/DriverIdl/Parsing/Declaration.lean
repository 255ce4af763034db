import DriverIdl.Parsing.TypeExpression

/-!
# Declarations of types

Attributes in brackets, enums with their values, and structs and unions with their members.
-/

namespace DriverIdl

/-- The greatest number that an enum value may have while it is read. -/
def greatestLiteral : Nat := Nat.pow 2 127 - 1

/-- The number that digits of a base denote; none if a character is no digit. -/
def digitsValue? (base : Nat) (digits : List Char) : Option Nat :=
  if digits.isEmpty then none
  else digits.foldlM (fun value digit =>
    let place :=
      if digit.isDigit then digit.toNat - '0'.toNat
      else if 'a' ≤ digit && digit ≤ 'f' then digit.toNat - 'a'.toNat + 10
      else base
    if place < base then some (value * base + place) else none) 0

/-- The value of an integer literal: decimal, or hexadecimal behind `0x`. -/
def literalValue? (text : String) : Option Nat :=
  let value := match text.toList.map Char.toLower with
    | '0' :: 'x' :: digits => digitsValue? 16 digits
    | digits => digitsValue? 10 digits
  value.filter (· ≤ greatestLiteral)

namespace Parse

/-- An attribute word and what it sets; other words that may stand in brackets set nothing. -/
def attributeSlot? (kind : TokenKind) : Option (Option ((Attributes → Bool) × (Attributes → Attributes))) :=
  match kind with
  | .oneway => some (some (Attributes.oneway, fun attributes => { attributes with oneway := true }))
  | .callback =>
    some (some (Attributes.callback, fun attributes => { attributes with callback := true }))
  | .full => some (some (Attributes.full, fun attributes => { attributes with full := true }))
  | .lite => some (some (Attributes.lite, fun attributes => { attributes with lite := true }))
  | .identifier | .inWord | .outWord => some none
  | _ => none

/-- Reads one attribute. -/
def oneAttribute (known : Attributes) : Parse Attributes := do
  let token ← next
  match attributeSlot? token.kind with
  | none => unexpected token "an attribute"
  | some none =>
    report token.place (.unknownAttribute token)
    return known
  | some (some (isSet, set)) =>
    if isSet known then
      report token.place (.repeatedAttribute token)
      return known
    else
      return set known

/-- Reads one more attribute and what separates or ends the list. -/
def attributeRound (known : Attributes) : Parse (Attributes ⊕ Attributes) := do
  let extended ← oneAttribute known
  let token ← next
  match token.kind with
  | .comma => return .inl extended
  | .bracketClose => return .inr extended
  | _ => unexpected token "\",\" or \"]\""

/-- Reads attributes in brackets. -/
def attributes : Parse (Attributes × Position) := do
  let opening ← expect .bracketOpen "\"[\""
  let found ← loop attributeRound {}
  if found.full && found.lite then report opening.place .exclusiveAttributes
  return (found, opening.place)

/-- Reads attributes if there are any. -/
def optionalAttributes : Parse (Attributes × Position) := do
  let token ← peek
  if token.kind = .bracketOpen then attributes else return ({}, token.place)

/-- Reports a name that the unit's own namespace has already; answers whether it is new. -/
def checkNewName (name : String) (place : Position) : Parse Bool := do
  let unit := (← get).unit
  if (unit.visibleType? (.named unit.namespaceId name)).isSome then
    report place (.repeatedType name)
    return false
  else
    return true

/-- Reports attributes that a type declaration does not take. -/
def checkTypeAttributes (declaration : String) (found : Attributes) (place : Position) :
    Parse Unit := do
  if found.oneway || found.callback then report place (.misappliedAttribute declaration)

/-- Adds a declared type to the program and to the unit's declarations. -/
def declare (name : String) (type : TypeNode) : Parse TypeId := do
  let id ← intern (.named (← get).unit.namespaceId name) type
  modify fun state =>
    { state with unit := { state.unit with definitions := state.unit.definitions ++ [id] } }
  return id

/-- Reads the base of an enum, `int` unless it is given. -/
def enumBase (options : Options) : Parse Primitive := do
  if ← eat .colon then
    let place := (← peek).place
    let type ← typeExpression options
    let arena ← types
    match (arena.primitive? type).filter Primitive.isIntegral with
    | some base => return base
    | none =>
      report place (.enumBase (arena.spelling type))
      return .int
  else
    return .int

/-- Reads the value of an enum member: a number, or the name of an earlier member. -/
def enumValue (members : List EnumMember) : Parse Int := do
  let negative ← eat .minus
  let token ← next
  match token.kind with
  | .number =>
    match literalValue? token.text with
    | some value => return if negative then -(value : Int) else value
    | none => fail token.place (.invalidNumber token.text)
  | .identifier =>
    if negative then unexpected token "an enum value"
    else match members.find? fun member => member.name == token.text with
      | some member => return member.value
      | none => fail token.place (.unknownEnumMember token.text)
  | _ => unexpected token "an enum value"

/-- Refuses a token at which a braced body cannot go on. -/
def checkBodyGoesOn (token : Token) : Parse Unit := do
  if token.kind = .eof || token.kind.startsDeclaration then unexpected token "\"\x7d\""

/-- Reads one member of an enum and answers all members, the value that follows and whether more
members may come. -/
def enumMember (base : Primitive) (members : List EnumMember) (following : Int) :
    Parse (List EnumMember × Int × Bool) := do
  let name ← expect .identifier "an enum member"
  let value ← if ← eat .assign then enumValue members else pure following
  if base.range?.any fun (least, greatest) => value < least || greatest < value then
    report name.place (.enumRange value name.text base.name)
  let extended ←
    if members.any fun member => member.name == name.text then do
      report name.place (.repeatedEnumMember name.text)
      pure members
    else pure (members ++ [⟨name.text, value, name.place⟩])
  let after := if value + 1 ≤ greatestLiteral then value + 1 else following
  return (extended, after, ← eat .comma)

/-- Reads one more member of an enum, behind which its value is known. -/
def enumRound (base : Primitive) :
    List EnumMember × Int → Parse ((List EnumMember × Int) ⊕ List EnumMember)
  | (members, following) => do
    let token ← peek
    if token.kind = .braceClose then return .inr members
    checkBodyGoesOn token
    let (extended, after, more) ← enumMember base members following
    if more then return .inl (extended, after) else return .inr extended

/-- Reads the members of an enum up to its closing brace. -/
def enumMembers (base : Primitive) : Parse (List EnumMember) := loop (enumRound base) ([], 0)

/-- Reads an enum. -/
def enumDeclaration (options : Options) (found : Attributes) (attributesPlace : Position) :
    Parse Unit := do
  let _ ← expect .enum "\"enum\""
  checkTypeAttributes "enum" found attributesPlace
  let name ← expect .identifier "an enum name"
  let fresh ← checkNewName name.text name.place
  let base ← enumBase options
  let _ ← expect .braceOpen "\"\x7b\""
  let members ← enumMembers base
  let _ ← expect .braceClose "\",\" or \"\x7d\""
  let _ ← eat .semicolon
  if members.isEmpty then report name.place (.emptyEnum name.text)
  if fresh then
    let unit := (← get).unit
    let _ ← declare name.text
      (.enum ⟨name.text, unit.namespaceId, unit.name, base, members, found, name.place⟩)

/-- Reads one member of a struct or union. -/
def recordMember (options : Options) (declaration : String) : Parse Member := do
  let place := (← peek).place
  let type ← typeExpression options
  match (← types).node type with
  | .interface declared => fail place (.interfaceMember declared.name declaration)
  | _ =>
    let name ← expect .identifier "a member name"
    let _ ← expect .semicolon "\";\""
    return ⟨name.text, type, name.place⟩

/-- Reads one more item of a body or its closing brace.  A broken item is skipped; one with a fault is
reported and left out. -/
def bodyRound {α : Type} (item : Parse α)
    (faultOf? : List α → α → Option (Position × SourceFault)) (items : List α) :
    Parse (List α ⊕ List α) := do
  if ← eat .braceClose then return .inr items
  checkBodyGoesOn (← peek)
  match ← attempt item with
  | none =>
    recoverStatement
    return .inl items
  | some found =>
    match faultOf? items found with
    | some (place, fault) =>
      report place fault
      return .inl items
    | none => return .inl (items ++ [found])

/-- Reads the items of a body and its closing brace. -/
def bodyItems {α : Type} (item : Parse α)
    (faultOf? : List α → α → Option (Position × SourceFault)) : Parse (List α) :=
  loop (bodyRound item faultOf?) []

/-- Reads the members of a struct or union and its closing brace. -/
def recordMembers (options : Options) (declaration : String) : Parse (List Member) :=
  bodyItems (recordMember options declaration) fun members member =>
    if members.any fun known => known.name == member.name then
      some (member.place, .repeatedMember member.name)
    else none

/-- Gives a struct or union its members. -/
def setMembers (members : List Member) : TypeNode → TypeNode
  | .struct record => .struct { record with members := members }
  | .union record => .union { record with members := members }
  | other => other

/-- Reads the body of a struct or union and gives its members to the type declared for it. -/
def recordBody (options : Options) (declaration : String) (name : Token) (id : Option TypeId) :
    Parse Unit := do
  let _ ← expect .braceOpen "\"\x7b\""
  let members ← recordMembers options declaration
  let _ ← eat .semicolon
  if members.isEmpty then report name.place (.emptyRecord declaration name.text)
  if let some type := id then
    modify fun state =>
      { state with program :=
        { state.program with types := state.program.types.update type (setMembers members) } }

/-- Reads a struct or union.  The type is known before its body, so that members may refer to it
through containers. -/
def recordDeclaration (options : Options) (found : Attributes) (attributesPlace : Position)
    (isUnion : Bool) : Parse Unit := do
  let declaration := if isUnion then "union" else "struct"
  let _ ← expect (if isUnion then .union else .struct) declaration
  checkTypeAttributes declaration found attributesPlace
  let name ← expect .identifier "a type name"
  if isUnion && options.language == some .java then
    report name.place (.support (.unionInJava name.text))
  let fresh ← checkNewName name.text name.place
  let unit := (← get).unit
  let record : RecordType :=
    ⟨name.text, unit.namespaceId, unit.name, [], found, name.place⟩
  let id ←
    if fresh then
      some <$> declare name.text (if isUnion then .union record else .struct record)
    else pure none
  recordBody options declaration name id

end Parse

end DriverIdl
