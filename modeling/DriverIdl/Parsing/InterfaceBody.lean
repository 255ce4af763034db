import DriverIdl.Parsing.Declaration

/-!
# Interfaces

An interface is a list of methods, each with its parameters.  Every interface also answers its
version, by a method that is added behind the declared ones.
-/

namespace DriverIdl

namespace Parse

/-- Reads the direction of a parameter. -/
def direction : Parse Direction := do
  let _ ← expect .bracketOpen "\"[\""
  let token ← next
  let found ← match token.kind with
    | .inWord => pure Direction.inward
    | .outWord => pure Direction.outward
    | _ => unexpected token "\"in\" or \"out\""
  let _ ← expect .bracketClose "\"]\""
  return found

/-- Reports an interface that travels the wrong way: callbacks are passed in, others come out. -/
def checkInterfaceDirection (type : TypeId) (way : Direction) (place : Position) : Parse Unit := do
  match (← types).interface? type with
  | none => return ()
  | some target =>
    match target.isCallback, way with
    | true, .outward => report place (.callbackDirection target.name)
    | false, .inward => report place (.interfaceDirection target.name)
    | _, _ => return ()

/-- Reads one parameter. -/
def parameter (options : Options) : Parse Parameter := do
  let way ← direction
  let type ← typeExpression options
  let name ← expect .identifier "a parameter name"
  checkInterfaceDirection type way name.place
  return ⟨name.text, way, type, name.place⟩

/-- Reads one more parameter and what separates or ends the list. -/
def parameterRound (options : Options) (known : List Parameter) :
    Parse (List Parameter ⊕ List Parameter) := do
  let found ← parameter options
  let extended ←
    if known.any fun earlier => earlier.name == found.name then do
      report found.place (.repeatedParameter found.name)
      pure known
    else pure (known ++ [found])
  let token ← next
  match token.kind with
  | .comma => return .inl extended
  | .parenClose => return .inr extended
  | _ => unexpected token "\",\" or \")\""

/-- Reads the parameters of a method and the closing parenthesis. -/
def parameters (options : Options) : Parse (List Parameter) := do
  if ← eat .parenClose then return []
  loop (parameterRound options) []

/-- Reads one method. -/
def method (options : Options) (interfaceAttributes : Attributes) : Parse Method := do
  let (found, attributesPlace) ← optionalAttributes
  if found.callback then report attributesPlace .callbackMethod
  let name ← expect .identifier "a method name"
  let _ ← expect .parenOpen "\"(\""
  let all ← parameters options
  let _ ← expect .semicolon "\";\""
  if interfaceAttributes.oneway || found.oneway then
    if let some result := all.find? Parameter.isOut then
      report result.place (.onewayResult name.text result.name)
  return ⟨name.text, found, all, name.place, false⟩

/-- Reads the methods of an interface and its closing brace. -/
def methods (options : Options) (interfaceAttributes : Attributes) : Parse (List Method) :=
  bodyItems (method options interfaceAttributes) fun known found =>
    if found.name == Method.versionName then
      some (found.place, .reservedMethod Method.versionName)
    else if known.any fun earlier => earlier.name == found.name then
      some (found.place, .repeatedMethod found.name)
    else none

/-- Reads an interface.  A file declares at most one, named like the file. -/
def interfaceDeclaration (options : Options) (found : Attributes) : Parse Unit := do
  let keyword ← expect .interface "\"interface\""
  let name ← expect .identifier "an interface name"
  let unit := (← get).unit
  let accepted := unit.interface.isNone
  if !accepted then report keyword.place .secondInterface
  if name.text != unit.name then report name.place (.interfaceFile name.text)
  if found.callback && options.language == some .java then
    report name.place (.support (.callbackInJava name.text))
  let _ ← expect .braceOpen "\"\x7b\""
  let declared ← methods options found
  let _ ← eat .semicolon
  if declared.isEmpty then report name.place (.emptyInterface name.text)
  if accepted then
    let id ← intern (.named unit.namespaceId name.text)
      (.interface ⟨name.text, unit.namespaceId, unit.name, found,
        declared ++ [Method.version name.place], false, name.place⟩)
    modify fun state => { state with unit := { state.unit with interface := some id } }

end Parse

end DriverIdl
