import DriverIdl.Model.Namespace
import DriverIdl.Model.Primitive
import DriverIdl.Token.Basic

/-!
# Types

All types of a run stand in one arena and refer to each other by number.  The arena starts with the
primitive types.  Structs and unions hold their members by value; arrays, lists and maps hold their
elements out of line, so types may refer to themselves through them.
-/

namespace DriverIdl

/-- The number of a type in its arena. -/
abbrev TypeId := Nat

/-- The attributes of a declaration or method. -/
structure Attributes where
  oneway : Bool := false
  callback : Bool := false
  full : Bool := false
  lite : Bool := false
  deriving DecidableEq, Inhabited

namespace Attributes

/-- Whether an item exists in a build: a `lite` item only in kernel builds, a `full` item only in
user builds. -/
def visible (attributes : Attributes) (kernel : Bool) : Bool :=
  if kernel then !attributes.full else !attributes.lite

/-- The names of the attributes that are set. -/
def names (attributes : Attributes) : List String :=
  (if attributes.oneway then ["oneway"] else []) ++
    (if attributes.callback then ["callback"] else []) ++
    (if attributes.full then ["full"] else []) ++
    (if attributes.lite then ["lite"] else [])

end Attributes

/-- A named value of an enum. -/
structure EnumMember where
  name : String
  value : Int
  place : Position
  deriving DecidableEq, Inhabited

/-- An enum and the integral type it is stored as. -/
structure EnumType where
  name : String
  namespaceId : NamespaceId
  unit : String
  base : Primitive
  members : List EnumMember
  attributes : Attributes
  place : Position
  deriving DecidableEq, Inhabited

/-- A member of a struct or union. -/
structure Member where
  name : String
  type : TypeId
  place : Position
  deriving DecidableEq, Inhabited

/-- The body of a struct or union. -/
structure RecordType where
  name : String
  namespaceId : NamespaceId
  unit : String
  members : List Member
  attributes : Attributes
  place : Position
  deriving DecidableEq, Inhabited

/-- A type that marshals itself. -/
structure SequenceableType where
  name : String
  namespaceId : NamespaceId
  deriving DecidableEq, Inhabited

/-- Which way a parameter travels. -/
inductive Direction where
  | inward | outward
  deriving DecidableEq, Inhabited

/-- A parameter of a method. -/
structure Parameter where
  name : String
  direction : Direction
  type : TypeId
  place : Position
  deriving DecidableEq, Inhabited

/-- Whether the parameter carries a result. -/
def Parameter.isOut (parameter : Parameter) : Bool := parameter.direction == .outward

/-- A method of an interface; its parameters are in wire order. -/
structure Method where
  name : String
  attributes : Attributes
  parameters : List Parameter
  place : Position
  synthesized : Bool
  deriving DecidableEq, Inhabited

namespace Method

/-- The parameters of the request. -/
def inParameters (method : Method) : List Parameter :=
  method.parameters.filter fun parameter => !parameter.isOut

/-- The parameters of the reply. -/
def outParameters (method : Method) : List Parameter :=
  method.parameters.filter Parameter.isOut

/-- The name of the method that every interface answers its version by. -/
def versionName : String := "GetVersion"

/-- The name of the result that carries the major version. -/
def majorName : String := "majorVer"

/-- The name of the result that carries the minor version. -/
def minorName : String := "minorVer"

/-- The method that answers the version of an interface. -/
def version (place : Position) : Method where
  name := versionName
  attributes := {}
  parameters := [⟨majorName, .outward, Primitive.uint.id, place⟩,
    ⟨minorName, .outward, Primitive.uint.id, place⟩]
  place := place
  synthesized := true

end Method

/-- An interface.  It becomes legal as a parameter type once it has been imported. -/
structure InterfaceType where
  name : String
  namespaceId : NamespaceId
  unit : String
  attributes : Attributes
  methods : List Method
  serializable : Bool
  place : Position
  deriving DecidableEq, Inhabited

namespace InterfaceType

/-- Whether the interface is implemented by the caller. -/
def isCallback (interface : InterfaceType) : Bool := interface.attributes.callback

/-- Whether a method returns before it is carried out. -/
def isOneway (interface : InterfaceType) (method : Method) : Bool :=
  interface.attributes.oneway || method.attributes.oneway

/-- The methods with their command numbers, in order. -/
def commands (interface : InterfaceType) : List (Nat × Method) :=
  interface.methods.zipIdx.map fun (method, id) => (id, method)

/-- The methods that the source declares. -/
def userMethods (interface : InterfaceType) : List Method :=
  interface.methods.filter fun method => !method.synthesized

/-- The version method, which comes last. -/
def versionMethod? (interface : InterfaceType) : Option Method :=
  interface.methods.getLast?.filter fun method => method.synthesized

end InterfaceType

/-- A type. -/
inductive TypeNode where
  | primitive (primitive : Primitive)
  | enum (type : EnumType)
  | struct (record : RecordType)
  | union (record : RecordType)
  | array (element : TypeId)
  | list (element : TypeId)
  | map (key value : TypeId)
  | interface (interface : InterfaceType)
  | sequenceable (type : SequenceableType)
  | queue (element : TypeId)
  deriving DecidableEq, Inhabited

namespace TypeNode

/-- The name of the kind of a type. -/
def kindName : TypeNode → String
  | .primitive _ => "primitive"
  | .enum _ => "enum"
  | .struct _ => "struct"
  | .union _ => "union"
  | .array _ => "array"
  | .list _ => "list"
  | .map _ _ => "map"
  | .interface _ => "interface"
  | .sequenceable _ => "sequenceable"
  | .queue _ => "queue"

/-- The name of a declared type. -/
def name? : TypeNode → Option String
  | .enum type => some type.name
  | .struct record | .union record => some record.name
  | .interface declared => some declared.name
  | .sequenceable type => some type.name
  | _ => none

/-- The namespace of a declared type. -/
def namespaceId? : TypeNode → Option NamespaceId
  | .enum type => some type.namespaceId
  | .struct record | .union record => some record.namespaceId
  | .interface declared => some declared.namespaceId
  | .sequenceable type => some type.namespaceId
  | _ => none

/-- The attributes of a declared type. -/
def attributes : TypeNode → Attributes
  | .enum type => type.attributes
  | .struct record | .union record => record.attributes
  | .interface declared => declared.attributes
  | _ => {}

/-- Whether the type holds elements out of line. -/
def isContainer : TypeNode → Bool
  | .array _ | .list _ | .map _ _ => true
  | _ => false

end TypeNode

/-- All types of a run. -/
structure TypeArena where
  nodes : Array TypeNode := (Primitive.all.map TypeNode.primitive).toArray
  deriving Inhabited

namespace TypeArena

/-- The number of types. -/
def size (arena : TypeArena) : Nat := arena.nodes.size

/-- A type of the arena. -/
def node (arena : TypeArena) (id : TypeId) : TypeNode :=
  arena.nodes[id]?.getD (.primitive .void)

/-- Adds a type and gives it the next number. -/
def alloc (arena : TypeArena) (type : TypeNode) : TypeId × TypeArena :=
  (arena.nodes.size, ⟨arena.nodes.push type⟩)

/-- Changes a type in place. -/
def update (arena : TypeArena) (id : TypeId) (change : TypeNode → TypeNode) : TypeArena :=
  ⟨arena.nodes.modify id change⟩

/-- Drops the types from a number on; the primitive types stay. -/
def truncate (arena : TypeArena) (size : Nat) : TypeArena :=
  ⟨arena.nodes.take (max size Primitive.all.length)⟩

/-- The primitive type with a number. -/
def primitive? (arena : TypeArena) (id : TypeId) : Option Primitive :=
  match arena.node id with
  | .primitive primitive => some primitive
  | _ => none

/-- The interface with a number. -/
def interface? (arena : TypeArena) (id : TypeId) : Option InterfaceType :=
  match arena.node id with
  | .interface interface => some interface
  | _ => none

/-- The element type of an array or list. -/
def element? (arena : TypeArena) (id : TypeId) : Option TypeId :=
  match arena.node id with
  | .array element | .list element => some element
  | _ => none

/-- The spelling of a type, for at most `depth` levels of containers. -/
def spellWithin (arena : TypeArena) : Nat → TypeId → String
  | 0, _ => ""
  | depth + 1, id =>
    match arena.node id with
    | .primitive primitive => primitive.name
    | .enum type => type.name
    | .struct record | .union record => record.name
    | .interface interface => interface.name
    | .sequenceable type => type.name
    | .array element => arena.spellWithin depth element ++ "[]"
    | .list element => "List<" ++ arena.spellWithin depth element ++ ">"
    | .map key value =>
      "Map<" ++ arena.spellWithin depth key ++ ", " ++ arena.spellWithin depth value ++ ">"
    | .queue element => "SharedMemQueue<" ++ arena.spellWithin depth element ++ ">"

/-- The spelling of a type in a source file.  Containers do not contain themselves, so there are at
most as many levels as types. -/
def spelling (arena : TypeArena) (id : TypeId) : String := arena.spellWithin (arena.size + 1) id

/-- The size of plain data, for at most `depth` levels of members.  Below the last level there is no
size.  That is also what a type answers that contains itself by value, though following its members
comes to no end and there is no answer to wait for. -/
def fixedSizeWithin (arena : TypeArena) : Nat → TypeId → Option Nat
  | 0, _ => none
  | depth + 1, id =>
    match arena.node id with
    | .primitive primitive => primitive.fixedSize?
    | .enum type => type.base.fixedSize?
    | .struct record =>
      record.members.foldl (fun total member =>
        match total, arena.fixedSizeWithin depth member.type with
        | some sum, some size => some (sum + size)
        | _, _ => none) (some 0)
    | .union record =>
      record.members.foldl (fun largest member =>
        match largest, arena.fixedSizeWithin depth member.type with
        | some most, some size => some (max most size)
        | _, _ => none) (some 0)
    | _ => none

/-- Bytes that a type takes if it is plain data: the sum of a struct's members, the largest of a
union's.  Away from types that contain themselves by value there are at most as many levels as types.
Such types are refused, but only when their file has been read, and its queues ask for sizes before. -/
def fixedSize? (arena : TypeArena) (id : TypeId) : Option Nat :=
  arena.fixedSizeWithin (arena.size + 1) id

/-- Whether a result of the type needs a capacity from the caller. -/
def needsCapacity (arena : TypeArena) (id : TypeId) : Bool :=
  match arena.node id with
  | .primitive .string | .array _ | .list _ => true
  | _ => false

/-- The results of a method that need a capacity, in order. -/
def capacityParameters (arena : TypeArena) (method : Method) : List Parameter :=
  method.outParameters.filter fun parameter => arena.needsCapacity parameter.type

/-- Whether the request of a method tells if capacities follow. -/
def needsCapacityFlag (arena : TypeArena) (method : Method) : Bool :=
  !(arena.capacityParameters method).isEmpty

end TypeArena

end DriverIdl
