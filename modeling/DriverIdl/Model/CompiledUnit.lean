import DriverIdl.Model.Types

/-!
# Compiled units and programs

A unit is what one source file declares.  Each unit has a table of the types it can see, in the order
in which they became visible.  A program is the units of a run in compile order over one arena of
types and one tree of namespaces.
-/

namespace DriverIdl

/-- What a unit declares. -/
inductive UnitKind where
  | interface | callback | types | sequenceable
  deriving DecidableEq, Inhabited

/-- What a type is known by in a unit: composite types by their parts, declared types by namespace
and name. -/
inductive TypeKey where
  | primitive (primitive : Primitive)
  | array (element : TypeId)
  | list (element : TypeId)
  | map (key value : TypeId)
  | queue (element : TypeId)
  | named (namespaceId : NamespaceId) (name : String)
  deriving DecidableEq, Inhabited

/-- The number of a unit in its program. -/
abbrev UnitId := Nat

/-- What one source file declares. -/
structure CompiledUnit where
  kind : UnitKind
  name : String
  package : String
  namespaceId : NamespaceId
  path : Path
  license : Option String := none
  version : Version := {}
  table : List (TypeKey × TypeId) :=
    Primitive.all.map fun primitive => (.primitive primitive, primitive.id)
  definitions : List TypeId := []
  interface : Option TypeId := none
  imports : List (String × UnitId) := []
  deriving Inhabited

namespace CompiledUnit

/-- The name by which other units import the unit. -/
def fullName (unit : CompiledUnit) : String := Package.fullName unit.package unit.name

/-- The type with a key in the table of the unit. -/
def visibleType? (unit : CompiledUnit) (key : TypeKey) : Option TypeId := unit.table.lookup key

/-- A table with a type under a key that is still free. -/
def tableWith (table : List (TypeKey × TypeId)) (key : TypeKey) (type : TypeId) :
    List (TypeKey × TypeId) :=
  match table.lookup key with
  | some _ => table
  | none => table ++ [(key, type)]

/-- Makes a type visible under a key that is still free. -/
def register (unit : CompiledUnit) (key : TypeKey) (type : TypeId) : CompiledUnit :=
  { unit with table := tableWith unit.table key type }

/-- The type with a key; it is added to the arena on first use. -/
def intern (unit : CompiledUnit) (arena : TypeArena) (key : TypeKey) (type : TypeNode) :
    TypeId × CompiledUnit × TypeArena :=
  match unit.visibleType? key with
  | some known => (known, unit, arena)
  | none =>
    let (id, grown) := arena.alloc type
    (id, { unit with table := unit.table ++ [(key, id)] }, grown)

/-- The type that a name denotes in the unit.  A short name denotes a type of the unit's own
namespace if there is one, and otherwise the first visible type of that name. -/
def lookup? (unit : CompiledUnit) (namespaces : NamespaceTree) (name : String) : Option TypeId :=
  match Package.splitFullName? name with
  | some (package, short) =>
    (namespaces.find? package).bind fun namespaceId => unit.visibleType? (.named namespaceId short)
  | none =>
    match unit.visibleType? (.named unit.namespaceId name) with
    | some id => some id
    | none => unit.table.findSome? fun (key, id) =>
      match key with
      | .named _ short => if short == name then some id else none
      | _ => none

/-- Whether the unit declares an interface. -/
def isInterfaceUnit (unit : CompiledUnit) : Bool :=
  unit.kind == .interface || unit.kind == .callback

end CompiledUnit

/-- Every unit of a run in compile order. -/
structure Program where
  types : TypeArena := {}
  namespaces : NamespaceTree := {}
  units : Array CompiledUnit := #[]
  deriving Inhabited

namespace Program

/-- The number of the unit with a full name. -/
def find? (program : Program) (fullName : String) : Option UnitId :=
  program.units.findIdx? fun unit => unit.fullName == fullName

/-- Adds a unit.  A unit whose name is known already is not added again. -/
def add (program : Program) (unit : CompiledUnit) : UnitId × Program :=
  match program.find? unit.fullName with
  | some id => (id, program)
  | none => (program.units.size, { program with units := program.units.push unit })

/-- The interface of a unit. -/
def interfaceOf? (program : Program) (unit : CompiledUnit) : Option InterfaceType :=
  unit.interface.bind program.types.interface?

end Program

end DriverIdl
