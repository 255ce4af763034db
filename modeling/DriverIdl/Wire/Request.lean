import DriverIdl.Wire.Basic

/-!
# Requests and replies

A request holds the arguments that go in, and a reply the results that come out.  If a method returns
strings, arrays or lists, its request starts with a flag, and behind a set flag stands the capacity
that the caller has for each of them.
-/

namespace DriverIdl.Wire

/-- A request: its arguments, and the capacities if the caller gave any. -/
structure Request where
  arguments : List Value
  capacities : Option (List UInt32)
  deriving Inhabited

/-- Checks a number of arguments. -/
def checkCount (method : Method) (what : String) (expected found : Nat) : Except Error Unit :=
  if expected = found then .ok ()
  else .error (.marshal (.argumentCount method.name expected what found))

/-- The bytes that an operation writes into an empty parcel. -/
def written (write : Write Unit) : Except Error (List UInt8) :=
  match write #[] with
  | .ok _ bytes => .ok bytes.toList
  | .error failure _ => .error failure

/-- What an operation reads from the start of a parcel. -/
def readFrom {α : Type} (bytes : List UInt8) (read : Read α) : Except Error α :=
  match read (.start bytes.toArray) with
  | .ok result _ => .ok result
  | .error failure _ => .error failure

/-- Writes arguments by the types of their parameters. -/
def writeArguments (arena : TypeArena) : List (Parameter × Value) → Write Unit
  | [] => return ()
  | (parameter, value) :: rest => do
    writeValue arena parameter.type value
    writeArguments arena rest

/-- Writes the flag and the capacities of a request. -/
def writeCapacities (arena : TypeArena) (method : Method) (capacities : Option (List UInt32)) :
    Write Unit := do
  if arena.needsCapacityFlag method then
    Parcel.Write.bool capacities.isSome
    if let some given := capacities then
      liftExcept (checkCount method "capacity" (arena.capacityParameters method).length given.length)
      given.forM fun capacity => Parcel.Write.number 4 capacity.toNat
where
  liftExcept (result : Except Error Unit) : Write Unit :=
    match result with
    | .ok () => return ()
    | .error failure => throw failure

/-- The bytes of a request. -/
def encodeRequest (arena : TypeArena) (method : Method) (request : Request) :
    Except Error (List UInt8) :=
  written do
    writeCapacities arena method request.capacities
    writeCapacities.liftExcept
      (checkCount method "in" method.inParameters.length request.arguments.length)
    writeArguments arena (method.inParameters.zip request.arguments)

/-- Reads the flag and the capacities of a request. -/
def readCapacities (arena : TypeArena) (method : Method) : Read (Option (List UInt32)) := do
  if arena.needsCapacityFlag method then
    if ← Parcel.Read.bool.adaptExcept .parcel then
      let given ← readMany (do
        return UInt32.ofNat (← (Parcel.Read.number 4).adaptExcept .parcel))
        (arena.capacityParameters method).length []
      return some given
  return none

/-- Reads values of the types of some parameters. -/
def readArguments (arena : TypeArena) (parameters : List Parameter) : Read (List Value) :=
  readEach (fun (parameter : Parameter) => readValue arena parameter.type) parameters []

/-- The request that bytes hold; all of them must be used. -/
def decodeRequest (arena : TypeArena) (method : Method) (bytes : List UInt8) :
    Except Error Request :=
  readFrom bytes do
    let capacities ← readCapacities arena method
    let arguments ← readArguments arena method.inParameters
    let reader ← get
    if !reader.isExhausted then
      throw (.marshal (.trailingBytes reader.remaining method.name))
    return ⟨arguments, capacities⟩

/-- Checks a result against the caller's capacity.  A string needs room for its terminator, a
sequence only for its elements. -/
def checkCapacity (value : Value) (capacity : Nat) : Except Error Unit :=
  let needed := match value with
    | .string text => text.utf8ByteSize + 1
    | other => other.size
  if needed ≤ capacity then .ok () else .error (.parcel (.capacityExceeded needed capacity))

/-- Writes results by the types of their parameters; capacities are used up in order. -/
def writeResults (arena : TypeArena) : List UInt32 → List (Parameter × Value) → Write Unit
  | _, [] => return ()
  | capacities, (parameter, value) :: rest => do
    if arena.needsCapacity parameter.type then
      match capacities with
      | [] =>
        writeValue arena parameter.type value
        writeResults arena [] rest
      | capacity :: others =>
        writeCapacities.liftExcept (checkCapacity value capacity.toNat)
        writeValue arena parameter.type value
        writeResults arena others rest
    else
      writeValue arena parameter.type value
      writeResults arena capacities rest

/-- The bytes of a reply to a request. -/
def encodeReply (arena : TypeArena) (method : Method) (request : Request) (results : List Value) :
    Except Error (List UInt8) := do
  checkCount method "out" method.outParameters.length results.length
  written (writeResults arena (request.capacities.getD []) (method.outParameters.zip results))

/-- The results that the bytes of a reply hold; bytes behind them do not matter. -/
def decodeReply (arena : TypeArena) (method : Method) (bytes : List UInt8) :
    Except Error (List Value) :=
  readFrom bytes (readArguments arena method.outParameters)

end DriverIdl.Wire
