import DriverIdl.Emit.Marshalling.Java

/-!
# Java: files

The classes that a file imports and the frame around its contents.
-/

namespace DriverIdl.JavaCode

/-- The classes that a type mentions, for at most `levels` levels of containers. -/
def mentionedWithin (context : EmitContext) : Nat → TypeId → List String
  | 0, _ => []
  | levels + 1, type =>
    let packageOf := context.program.namespaces.fullName
    let foreign := fun namespaceId => namespaceId != context.unit.namespaceId
    match context.types.node type with
    | .primitive .fileDescriptor => ["java.io.FileDescriptor"]
    | .primitive _ => []
    | .enum declared =>
      if foreign declared.namespaceId then [packageOf declared.namespaceId ++ "." ++ declared.unit]
      else []
    | .struct record | .union record =>
      if foreign record.namespaceId then [packageOf record.namespaceId ++ "." ++ record.unit] else []
    | .array element | .queue element => mentionedWithin context levels element
    | .list element =>
      ["java.util.ArrayList", "java.util.List"] ++ mentionedWithin context levels element
    | .map key value =>
      ["java.util.HashMap", "java.util.Map"] ++ mentionedWithin context levels key ++
        mentionedWithin context levels value
    | .interface declared =>
      if foreign declared.namespaceId then
        let package := packageOf declared.namespaceId
        [package ++ "." ++ declared.name, package ++ "." ++ Text.baseName declared.name ++ "Proxy"]
      else []
    | .sequenceable declared => [packageOf declared.namespaceId ++ "." ++ declared.name]

/-- The classes that a type mentions. -/
def mentioned (context : EmitContext) (type : TypeId) : List String :=
  mentionedWithin context (context.types.size + 1) type

/-- The classes that the parameters of methods mention. -/
def mentionedByMethods (context : EmitContext) (methods : List Method) : List String :=
  methods.flatMap fun method =>
    method.parameters.flatMap fun parameter => mentioned context parameter.type

/-- A file: the package, the imported classes in order and each once, then a class. -/
def file (context : EmitContext) (name : String) (imports : List String) (body : Code) :
    GeneratedFile :=
  let sorted := (imports.mergeSort fun left right => decide (left ≤ right)).eraseReps
  .ofCode (name ++ ".java") <|
    Code.license context.unit ++ Code.line s!"package {context.unit.package};" ++ Code.blank ++
    Code.lines (sorted.map fun imported => s!"import {imported};") ++ Code.blank ++
    body

end DriverIdl.JavaCode
