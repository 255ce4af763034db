import DriverIdl.Emit.Declarations.C
import DriverIdl.Emit.Declarations.Cpp
import DriverIdl.Emit.Declarations.Java
import DriverIdl.Emit.Host.C
import DriverIdl.Emit.Host.Cpp
import DriverIdl.Emit.Proxy.C
import DriverIdl.Emit.Proxy.Cpp
import DriverIdl.Emit.Proxy.Java
import DriverIdl.Emit.Stub.C
import DriverIdl.Emit.Stub.Cpp

/-!
# Rendering

The files of a unit in a language.  Only the client side exists in Java.
-/

namespace DriverIdl

/-- Whether a language has an artifact. -/
def Language.supports : Language → Artifact → Bool
  | .c, _ | .cpp, _ => true
  | .java, .customTypes | .java, .interface | .java, .proxy => true
  | .java, _ => false

/-- The files of an artifact. -/
def Artifact.render (context : EmitContext) : Language → Artifact → Emit (List GeneratedFile)
  | .c, .customTypes => CCode.customTypes context
  | .c, .interface => CCode.interfaceHeader context
  | .c, .proxy => CCode.proxy context
  | .c, .stub => CCode.stub context
  | .c, .driver => return CCode.driver context
  | .c, .serviceImpl => CCode.service context
  | .cpp, .customTypes => return CppCode.customTypes context
  | .cpp, .interface => CppCode.interfaceHeader context
  | .cpp, .proxy => CppCode.proxy context
  | .cpp, .stub => CppCode.stub context
  | .cpp, .driver => return CppCode.driver context
  | .cpp, .serviceImpl => CppCode.service context
  | .java, .customTypes => JavaCode.customTypes context
  | .java, .interface => JavaCode.interfaceFile context
  | .java, .proxy => JavaCode.proxy context
  | .java, artifact => throw (.artifactInJava artifact)

/-- Whether a unit exists in this build: an interface may be hidden from it. -/
def Program.shows (program : Program) (options : Options) (unit : CompiledUnit) : Bool :=
  match program.interfaceOf? unit with
  | some interface => interface.attributes.visible options.kernel
  | none => true

/-- The files of a unit in a language, artifact by artifact. -/
def Program.render (program : Program) (options : Options) (language : Language)
    (unit : CompiledUnit) : Emit (List GeneratedFile) :=
  if program.shows options unit then do
    let artifacts := (Artifact.forUnit unit.kind options.buildTarget).filter language.supports
    return (← artifacts.mapM (Artifact.render ⟨options, program, unit⟩ language)).flatten
  else return []

end DriverIdl
