import DriverIdl.CommandLine
import DriverIdl.Compilation
import DriverIdl.Diagnostic
import DriverIdl.Dump.Basic
import DriverIdl.Dump.Json
import DriverIdl.Emit.Artifact
import DriverIdl.Emit.Basic
import DriverIdl.Emit.CodeWriter
import DriverIdl.Emit.Declarations.C
import DriverIdl.Emit.Declarations.Cpp
import DriverIdl.Emit.Declarations.Java
import DriverIdl.Emit.Frame.C
import DriverIdl.Emit.Frame.Cpp
import DriverIdl.Emit.Frame.Java
import DriverIdl.Emit.Host.C
import DriverIdl.Emit.Host.Cpp
import DriverIdl.Emit.Marshalling.C
import DriverIdl.Emit.Marshalling.Cpp
import DriverIdl.Emit.Marshalling.Java
import DriverIdl.Emit.Pieces
import DriverIdl.Emit.Proxy.C
import DriverIdl.Emit.Proxy.Cpp
import DriverIdl.Emit.Proxy.Java
import DriverIdl.Emit.Render
import DriverIdl.Emit.Stub.C
import DriverIdl.Emit.Stub.Cpp
import DriverIdl.Failure
import DriverIdl.FileTree.Basic
import DriverIdl.FileTree.Change
import DriverIdl.FileTree.Fault
import DriverIdl.Header
import DriverIdl.ImportGraph
import DriverIdl.Main
import DriverIdl.Model.CompiledUnit
import DriverIdl.Model.Containment
import DriverIdl.Model.Namespace
import DriverIdl.Model.Primitive
import DriverIdl.Model.Types
import DriverIdl.Options
import DriverIdl.Package
import DriverIdl.Parcel.Basic
import DriverIdl.Parcel.LittleEndian
import DriverIdl.Parsing.Declaration
import DriverIdl.Parsing.InterfaceBody
import DriverIdl.Parsing.SourceFile
import DriverIdl.Parsing.State
import DriverIdl.Parsing.TypeExpression
import DriverIdl.Path
import DriverIdl.Resolution
import DriverIdl.Sha256
import DriverIdl.Text.CaseMap
import DriverIdl.Text.Casing
import DriverIdl.Text.CharClass
import DriverIdl.Text.Quoted
import DriverIdl.Text.Replace
import DriverIdl.Text.Shortest
import DriverIdl.Token.Basic
import DriverIdl.Token.Lexer
import DriverIdl.Token.Lookahead
import DriverIdl.Value.Basic
import DriverIdl.Value.Printer
import DriverIdl.Wire.Basic
import DriverIdl.Wire.Request
import DriverIdl.Proofs.Compilation
import DriverIdl.Proofs.CompileOrder
import DriverIdl.Proofs.RootLookup
import DriverIdl.Proofs.Containment.Graph
import DriverIdl.Proofs.Containment.Search
import DriverIdl.Proofs.Containment.Verdict
import DriverIdl.Proofs.Discovery
import DriverIdl.Proofs.Emit.Acceptance
import DriverIdl.Proofs.Emit.C
import DriverIdl.Proofs.Emit.Expressible
import DriverIdl.Proofs.Emit.Java
import DriverIdl.Proofs.EntryOrder
import DriverIdl.Proofs.ErrorAccounting
import DriverIdl.Proofs.FailedRuns
import DriverIdl.Proofs.Text.Signs
import DriverIdl.Proofs.GeneratedFiles
import DriverIdl.Proofs.Grammar.Acceptance
import DriverIdl.Proofs.Grammar.Basic
import DriverIdl.Proofs.Grammar.Completeness
import DriverIdl.Proofs.Grammar.Integers
import DriverIdl.Proofs.Grammar.Passing
import DriverIdl.Proofs.Grammar.Soundness
import DriverIdl.Proofs.Grammar.Spelling
import DriverIdl.Proofs.Grammar.Words
import DriverIdl.Proofs.ImportOrder
import DriverIdl.Proofs.Enum.Values
import DriverIdl.Proofs.Interface.Contract
import DriverIdl.Proofs.Interface.Methods
import DriverIdl.Proofs.Interning
import DriverIdl.Proofs.Model.Arena
import DriverIdl.Proofs.Model.Namespace
import DriverIdl.Proofs.Model.Program
import DriverIdl.Proofs.Model.Trie
import DriverIdl.Proofs.Parcel.Consumption
import DriverIdl.Proofs.Parcel.Stream
import DriverIdl.Proofs.Parsing.ArenaChange
import DriverIdl.Proofs.Parsing.Coherence
import DriverIdl.Proofs.Parsing.Declaration
import DriverIdl.Proofs.Parsing.Faults
import DriverIdl.Proofs.Parsing.HeaderNames
import DriverIdl.Proofs.Parsing.HeaderReading
import DriverIdl.Proofs.Parsing.HeaderStatements
import DriverIdl.Proofs.Parsing.InterfaceBody
import DriverIdl.Proofs.Parsing.Moves
import DriverIdl.Proofs.Parsing.Names
import DriverIdl.Proofs.Parsing.Publication
import DriverIdl.Proofs.Parsing.Recovery
import DriverIdl.Proofs.Parsing.Repetition
import DriverIdl.Proofs.Parsing.Runs
import DriverIdl.Proofs.Parsing.SourceFile
import DriverIdl.Proofs.Parsing.Support
import DriverIdl.Proofs.Parsing.TypeExpression
import DriverIdl.Proofs.Paths
import DriverIdl.Proofs.Program.Accounting
import DriverIdl.Proofs.Program.Invariant
import DriverIdl.Proofs.Program.Queues
import DriverIdl.Proofs.Program.Reachable
import DriverIdl.Proofs.Program.Rejection
import DriverIdl.Proofs.Program.SupportMatrix
import DriverIdl.Proofs.Program.UnitShape
import DriverIdl.Proofs.Program.WellFormed
import DriverIdl.Proofs.Reachability
import DriverIdl.Proofs.Resolution
import DriverIdl.Proofs.Token.Lexing
import DriverIdl.Proofs.Token.Lookahead
import DriverIdl.Proofs.Wire.Amplification
import DriverIdl.Proofs.Wire.Call
import DriverIdl.Proofs.Wire.Canonical
import DriverIdl.Proofs.Wire.Conformance
import DriverIdl.Proofs.Wire.RoundTrip
import DriverIdl.Proofs.Wire.Transfer
import DriverIdl.Proofs.Wire.Truncation
import DriverIdl.Proofs.Wire.Unfolding
import DriverIdl.Proofs.Wire.Unions
import DriverIdl.Proofs.Emit.CCalls
import DriverIdl.Proofs.Emit.MethodNames
import DriverIdl.Proofs.Emit.CFunctions
import DriverIdl.Proofs.Emit.CStubs
import DriverIdl.Proofs.Emit.CppCalls
import DriverIdl.Proofs.Emit.CppFunctions
import DriverIdl.Proofs.Emit.Mirroring
import DriverIdl.Proofs.Emit.DefinedNames
import DriverIdl.Proofs.Emit.Definitions
import DriverIdl.Proofs.Emit.HeaderFrames
import DriverIdl.Proofs.Emit.JavaDefinitions
import DriverIdl.Proofs.Emit.DeclarationFiles
import DriverIdl.Proofs.Emit.Visibility
import DriverIdl.Proofs.Parcel.RawReads
import DriverIdl.Proofs.Parsing.Progress
import DriverIdl.Proofs.Parcel.Entries
import DriverIdl.Proofs.Program.Containers
import DriverIdl.Proofs.Emit.JavaArrays
import DriverIdl.Proofs.Emit.Levels
import DriverIdl.Proofs.Emit.CDeclaredNames
import DriverIdl.Proofs.Program.SizeQuestions
import DriverIdl.Proofs.Emit.Appending
import DriverIdl.Proofs.Dump.DeclarationSequence
import DriverIdl.Proofs.Dump.Finishing
import DriverIdl.Proofs.Dump.Header
import DriverIdl.Proofs.Dump.Opening
import DriverIdl.Proofs.Dump.Reading
import DriverIdl.Proofs.Dump.RoundTrip
