import DriverIdl.Model.CompiledUnit
import DriverIdl.Options

/-!
# Artifacts

The files that a unit is rendered to, by its kind and the side that is built.
-/

namespace DriverIdl

/-- A role that generated code plays. -/
inductive Artifact where
  | customTypes | interface | proxy | stub | driver | serviceImpl
  deriving DecidableEq, Inhabited

/-- The name of an artifact. -/
def Artifact.name : Artifact → String
  | .customTypes => "CustomTypes"
  | .interface => "Interface"
  | .proxy => "Proxy"
  | .stub => "Stub"
  | .driver => "Driver"
  | .serviceImpl => "ServiceImpl"

/-- The artifacts of a unit.  A callback always has both sides, because the client that registers it
hosts its implementation; it has no driver of its own. -/
def Artifact.forUnit (kind : UnitKind) (target : BuildTarget) : List Artifact :=
  match kind, target with
  | .types, _ => [.customTypes]
  | .sequenceable, _ => []
  | .callback, _ => [.interface, .proxy, .stub, .serviceImpl]
  | .interface, .client => [.interface, .proxy]
  | .interface, .server => [.interface, .driver, .stub, .serviceImpl]
  | .interface, .all => [.interface, .proxy, .driver, .stub, .serviceImpl]

end DriverIdl
