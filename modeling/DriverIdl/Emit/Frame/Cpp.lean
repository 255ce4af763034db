import DriverIdl.Emit.Marshalling.Cpp

/-!
# C++: files

The names that all C++ files of a unit share and the frame around their contents.
-/

namespace DriverIdl.CppCode

/-- The header of a unit. -/
def headerFile (unit : CompiledUnit) : String := Text.lowercase unit.name ++ ".h"

/-- The line that includes the header of an imported unit.  The header of a sequenceable is written
by hand and named after its class. -/
def includeOf (context : EmitContext) (unit : CompiledUnit) : String :=
  if unit.kind == .sequenceable then Code.includeLine (Text.snakeCase unit.name ++ ".h")
  else if unit.package == context.unit.package then Code.includeLine (headerFile unit)
  else Code.includeLine (Text.replaceChar '.' '/' unit.package ++ "/" ++ headerFile unit)

/-- Code inside the namespaces of the unit. -/
def inNamespaces (context : EmitContext) (body : Code) : Code :=
  let names := namespaces context context.unit.namespaceId
  Code.lines (names.map fun name => s!"namespace {name} \x7b") ++ Code.blank ++
    body ++ Code.blank ++
    Code.lines (names.reverse.map fun name => s!"\x7d // {name}")

/-- A class whose members are public up to a private part. -/
def classDefinition (head : String) (publicPart privatePart : Code) : Code :=
  Code.lines [s!"class {head} \x7b", "public:"] ++ [.indent] ++ publicPart ++ [.dedent] ++
    Code.when (!privatePart.isEmpty)
      (Code.line "private:" ++ [.indent] ++ privatePart ++ [.dedent]) ++
    Code.line "\x7d;"

/-- A header: its preamble, then declarations in the namespaces of the unit. -/
def header (context : EmitContext) (file : String) (preamble body : Code) : GeneratedFile :=
  let guard := guardMacro context.unit.package file
  .ofCode file <|
    Code.license context.unit ++ Code.includeGuard guard ++
    preamble ++ Code.blank ++
    inNamespaces context body ++ Code.blank ++
    Code.line s!"#endif // {guard}"

/-- A source file: its includes, the tag of its log messages, then functions in the namespaces of
the unit. -/
def source (context : EmitContext) (file : String) (includes : List String) (tag : String)
    (body : Code) : GeneratedFile :=
  .ofCode file <|
    Code.license context.unit ++ Code.lines includes ++ Code.logTag tag ++ inNamespaces context body

end DriverIdl.CppCode
