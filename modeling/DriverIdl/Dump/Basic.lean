import DriverIdl.Dump.Json
import DriverIdl.Model.CompiledUnit
import DriverIdl.Options
import DriverIdl.Value.Printer

/-!
# Dumps

A compiled unit printed for a reader, either close to the source it came from or as structured data.
Sequenceables are not printed on their own.
-/

namespace DriverIdl.Dump

/-- Attributes in front of a declaration. -/
def attributesText (attributes : Attributes) : String :=
  match attributes.names with
  | [] => ""
  | names => "[" ++ commaSeparated names ++ "] "

/-- The word for the kind of a unit. -/
def kindText : UnitKind → String
  | .interface => "interface"
  | .callback => "callback"
  | .types => "types"
  | .sequenceable => "sequenceable"

/-- The word for the direction of a parameter. -/
def directionText : Direction → String
  | .inward => "in"
  | .outward => "out"

/-- The units that are printed. -/
def printedUnits (program : Program) : List CompiledUnit :=
  program.units.toList.filter fun unit => unit.kind != .sequenceable

/-- The lines in front of the imports. -/
def headLines (unit : CompiledUnit) : List String :=
  ["// " ++ unit.fullName ++ " (" ++ kindText unit.kind ++ ")", "// file: " ++ unit.path.text] ++
    unit.license.toList ++
    ["package " ++ unit.package ++ "; // version " ++ unit.version.text]

/-- The lines of the imports. -/
def importLines (program : Program) (unit : CompiledUnit) : List String :=
  if unit.imports.isEmpty then []
  else "" :: unit.imports.map fun (name, id) =>
    let keyword := match (program.units[id]?).map CompiledUnit.kind with
      | some .sequenceable => "sequenceable"
      | _ => "import"
    keyword ++ " " ++ name ++ ";"

/-- The lines of a struct or union. -/
def recordLines (types : TypeArena) (keyword : String) (record : RecordType) : List String :=
  [attributesText record.attributes ++ keyword ++ " " ++ record.name ++ " \x7b"] ++
    record.members.map (fun member =>
      "    " ++ types.spelling member.type ++ " " ++ member.name ++ ";") ++
    ["\x7d;"]

/-- The lines of a declared type. -/
def definitionLines (types : TypeArena) (id : TypeId) : List String :=
  "" :: match types.node id with
    | .enum declared =>
      [attributesText declared.attributes ++ "enum " ++ declared.name ++ " : " ++
          declared.base.name ++ " \x7b"] ++
        declared.members.map (fun member =>
          "    " ++ member.name ++ " = " ++ toString member.value ++ ",") ++
        ["\x7d;"]
    | .struct record => recordLines types "struct" record
    | .union record => recordLines types "union" record
    | _ => []

/-- The line of a method. -/
def methodLine (types : TypeArena) (id : Nat) (method : Method) : String :=
  let parameters := method.parameters.map fun parameter =>
    "[" ++ directionText parameter.direction ++ "] " ++ types.spelling parameter.type ++ " " ++
      parameter.name
  "    /* " ++ toString id ++ " */ " ++ attributesText method.attributes ++ method.name ++ "(" ++
    commaSeparated parameters ++ ");"

/-- The lines of the interface. -/
def interfaceLines (program : Program) (unit : CompiledUnit) : List String :=
  match program.interfaceOf? unit with
  | none => []
  | some interface =>
    ["", attributesText interface.attributes ++ "interface " ++ interface.name ++ " \x7b"] ++
      interface.commands.map (fun (id, method) => methodLine program.types id method) ++
      ["\x7d"]

/-- A unit close to the source it came from. -/
def unitText (program : Program) (unit : CompiledUnit) : String :=
  String.intercalate "\n"
    (headLines unit ++ importLines program unit ++
      unit.definitions.flatMap (definitionLines program.types) ++
      interfaceLines program unit ++ [""])

/-- Attributes as structured data. -/
def attributesJson (attributes : Attributes) : Json :=
  .object [("oneway", .bool attributes.oneway), ("callback", .bool attributes.callback),
    ("full", .bool attributes.full), ("lite", .bool attributes.lite)]

/-- A struct or union as structured data. -/
def recordJson (types : TypeArena) (kind : String) (record : RecordType) : Json :=
  .object [("kind", .string kind), ("name", .string record.name),
    ("members", .array (record.members.map fun member =>
      .object [("name", .string member.name), ("type", .string (types.spelling member.type))]))]

/-- A declared type as structured data. -/
def definitionJson? (types : TypeArena) (id : TypeId) : Option Json :=
  match types.node id with
  | .enum declared =>
    some (.object [("kind", .string "enum"), ("name", .string declared.name),
      ("base", .string declared.base.name),
      ("members", .array (declared.members.map fun member =>
        .array [.string member.name, .number member.value]))])
  | .struct record => some (recordJson types "struct" record)
  | .union record => some (recordJson types "union" record)
  | _ => none

/-- A parameter as structured data. -/
def parameterJson (types : TypeArena) (parameter : Parameter) : Json :=
  .object [("name", .string parameter.name),
    ("direction", .string (match parameter.direction with | .inward => "In" | .outward => "Out")),
    ("type", .string (types.spelling parameter.type))]

/-- An interface as structured data. -/
def interfaceJson (types : TypeArena) (interface : InterfaceType) : Json :=
  .object [("name", .string interface.name), ("attrs", attributesJson interface.attributes),
    ("methods", .array (interface.commands.map fun (id, method) =>
      .object [("id", .number id), ("name", .string method.name),
        ("attrs", attributesJson method.attributes),
        ("params", .array (method.parameters.map (parameterJson types)))]))]

/-- The name of a unit's kind in structured data. -/
def kindName : UnitKind → String
  | .interface => "Interface"
  | .callback => "Callback"
  | .types => "Types"
  | .sequenceable => "Sequenceable"

/-- A unit as structured data. -/
def unitJson (program : Program) (unit : CompiledUnit) : Json :=
  .object [("name", .string unit.fullName), ("kind", .string (kindName unit.kind)),
    ("file", .string unit.path.text), ("package", .string unit.package),
    ("version", .object [("major", .number unit.version.major),
      ("minor", .number unit.version.minor)]),
    ("license", match unit.license with | some text => .string text | none => .null),
    ("imports", .array (unit.imports.map fun (name, _) => .string name)),
    ("types", .array (unit.definitions.filterMap (definitionJson? program.types))),
    ("interface", match program.interfaceOf? unit with
      | some interface => interfaceJson program.types interface
      | none => .null)]

/-- A program in a format. -/
def text (format : DumpFormat) (program : Program) : String :=
  match format with
  | .text => String.intercalate "\n" ((printedUnits program).map (unitText program))
  | .json => (Json.array ((printedUnits program).map (unitJson program))).pretty

end DriverIdl.Dump
