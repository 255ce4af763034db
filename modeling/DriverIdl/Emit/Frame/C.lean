import DriverIdl.Emit.Marshalling.C

/-!
# C: files

The names that all C files of a unit share and the frame around their contents.  Headers of one
package stand in one directory; those of other packages are reached through the package path.
-/

namespace DriverIdl.CCode

/-- The header of a unit. -/
def headerFile (unit : CompiledUnit) : String := Text.snakeCase unit.name ++ ".h"

/-- The line that includes the header of an imported unit. -/
def includeOf (context : EmitContext) (unit : CompiledUnit) : String :=
  if unit.package == context.unit.package then Code.includeLine (headerFile unit)
  else Code.includeLine (Text.replaceChar '.' '/' unit.package ++ "/" ++ headerFile unit)

/-- What the macros of an interface start with. -/
def interfaceMacro (context : EmitContext) : String := Text.uppercase context.name

/-- The parameters of a method behind the instance it is called on. -/
def methodParameters (context : EmitContext) (method : Method) : Emit String := do
  let declarators ← method.parameters.mapM (parameterDeclarators context.types)
  return String.intercalate ", " (s!"struct {context.name} *self" :: declarators.flatten)

/-- The lines that open a block with C linkage. -/
def beginLinkage : List String :=
  ["#ifdef __cplusplus", "extern \"C\" \x7b", "#endif /* __cplusplus */"]

/-- The lines that close a block with C linkage. -/
def endLinkage : List String := ["#ifdef __cplusplus", "\x7d", "#endif /* __cplusplus */"]

/-- A header: its includes, then declarations with C linkage. -/
def header (context : EmitContext) (file : String) (includes : List String) (body : Code) :
    GeneratedFile :=
  let guard := guardMacro context.unit.package file
  .ofCode file <|
    Code.license context.unit ++ Code.includeGuard guard ++
    Code.lines includes ++ Code.blank ++
    Code.lines beginLinkage ++ Code.blank ++
    body ++ Code.blank ++
    Code.lines endLinkage ++ Code.blank ++
    Code.line s!"#endif /* {guard} */"

/-- A source file: its includes, the tag of its log messages, then functions. -/
def source (context : EmitContext) (file : String) (includes : List String) (tag : String)
    (body : Code) : GeneratedFile :=
  .ofCode file (Code.license context.unit ++ Code.lines includes ++ Code.logTag tag ++ body)

end DriverIdl.CCode
