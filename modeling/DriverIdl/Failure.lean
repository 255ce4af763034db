import DriverIdl.Diagnostic
import DriverIdl.Emit.Basic
import DriverIdl.Header

/-!
# Failures of a run

Why a run stops, in the words in which it tells so.
-/

namespace DriverIdl

/-- Why the units of a run cannot be found. -/
inductive ResolveFault where
  | header (fault : Header.Fault)
  | importName (fault : ImportFault)
  | wrongUnit (path : Path) (expected declared : String)
  | declaredTwice (unit : String) (first second : Path)
  | importMissing (unit : String) (importer sought : Path)
  deriving DecidableEq, Inhabited

/-- The sentence that tells a fault. -/
def ResolveFault.message : ResolveFault → String
  | .header fault => fault.message
  | .importName fault => fault.message
  | .wrongUnit path expected declared =>
    path.text ++ " was imported as " ++ Text.quote expected ++ " but declares " ++
      Text.quote declared
  | .declaredTwice unit first second =>
    "unit " ++ Text.quote unit ++ " is declared by both " ++ first.text ++ " and " ++ second.text
  | .importMissing unit importer sought =>
    "cannot find " ++ Text.quote unit ++ " imported by " ++ importer.text ++ ", looked for " ++
      sought.text

/-- Why a run stops. -/
inductive Failure where
  | read (path : Path) (fault : FileFault)
  | write (path : Path) (fault : FileFault)
  | options (fault : OptionsFault)
  | resolve (fault : ResolveFault)
  | cycle (units : List String)
  | compile (diagnostics : List Diagnostic)
  | generate (fault : GenerateFault)
  deriving Inhabited

/-- The kind of a failure. -/
def Failure.kindName : Failure → String
  | .read _ _ => "Read"
  | .write _ _ => "Write"
  | .options _ => "Options"
  | .resolve _ => "Resolve"
  | .cycle _ => "Cycle"
  | .compile _ => "Compile"
  | .generate _ => "Generate"

/-- The text that tells a failure. -/
def Failure.message : Failure → String
  | .read path fault => "failed to read " ++ path.text ++ ": " ++ fault.message
  | .write path fault => "failed to write " ++ path.text ++ ": " ++ fault.message
  | .options fault => "invalid options: " ++ fault.message
  | .resolve fault => "resolve error: " ++ fault.message
  | .cycle units => "circular dependency among " ++ String.intercalate ", " units
  | .compile diagnostics => String.intercalate "\n" (diagnostics.map Diagnostic.text)
  | .generate fault => "generate error: " ++ fault.message

end DriverIdl
