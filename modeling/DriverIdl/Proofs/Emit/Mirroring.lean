import DriverIdl.Emit.Render
import DriverIdl.Proofs.Emit.Acceptance
import DriverIdl.Proofs.Emit.CStubs
import DriverIdl.Proofs.Emit.CppFunctions
import DriverIdl.Proofs.Interface.Contract

/-!
# Both sides of a connection

A proxy and a stub are written by different functions, and so are the two functions of a struct.  What
one of them writes into a parcel the other one reads: with parcel functions of the same kinds, in the
same order and inside as many loops.  This holds of the files that are rendered for the two sides,
also if each side is rendered under options of its own.

A proxy in C++ announces that no capacities follow, so what a stub in C++ does only if they follow is
left out.
-/

namespace DriverIdl

/-- A rendering of a unit in a language that writes one of its artifacts. -/
structure Rendering (program : Program) (unit : CompiledUnit) (language : Language)
    (artifact : Artifact) where
  options : Options
  files : List GeneratedFile
  shown : program.shows options unit = true
  selected : artifact ∈ Artifact.forUnit unit.kind options.buildTarget
  rendered : program.render options language unit = .ok files

namespace Rendering

variable {program : Program} {unit : CompiledUnit} {language : Language} {artifact : Artifact}

/-- What is rendered, with its surroundings. -/
def context (rendering : Rendering program unit language artifact) : EmitContext :=
  ⟨rendering.options, program, unit⟩

/-- The interface of the unit has a method, and the build shows it. -/
def Shows (rendering : Rendering program unit language artifact) (method : Method) : Prop :=
  ∃ interface, program.interfaceOf? unit = some interface ∧ method ∈ interface.methods ∧
    method.attributes.visible rendering.options.kernel = true

/-- A function stands in one of the files: its code is a part of the code of the file, and its text is
a part of the text, line by line. -/
def Holds (rendering : Rendering program unit language artifact) (function : Code) : Prop :=
  ∃ file ∈ rendering.files, file.Contains function ∧
    CodeLexeme.rows (Code.text function).toList <:+: CodeLexeme.rows file.contents.toList

theorem holds_of_contains {rendering : Rendering program unit language artifact}
    {own : List GeneratedFile} {function : Code} (areOwn : ∀ file ∈ own, file ∈ rendering.files)
    (contains : ∃ file ∈ own, file.Contains function) : rendering.Holds function := by
  obtain ⟨file, isOwn, code, isText, inside⟩ := contains
  refine ⟨file, areOwn file isOwn, ⟨code, isText, inside⟩, ?_⟩
  obtain ⟨before, behind, rfl⟩ := inside
  rw [isText, Code.rows_text, Code.rows_text, Code.rows_append, Code.rows_append]
  exact ⟨_, _, rfl⟩

/-- The files of the artifact are among all files of the unit. -/
theorem artifact_rendered (rendering : Rendering program unit language artifact)
    (supported : language.supports artifact = true) :
    ∃ own, artifact.render rendering.context language = .ok own ∧
      ∀ file ∈ own, file ∈ rendering.files :=
  Program.artifact_of_render rendering.rendered rendering.shown rendering.selected supported

/-- A method that a build shows is among those of its context. -/
theorem Shows.listed {rendering : Rendering program unit language artifact} {method : Method}
    (shows : rendering.Shows method) :
    ∃ methods, rendering.context.methods = .ok methods ∧ method ∈ methods.map Prod.snd := by
  obtain ⟨interface, found, declared, visible⟩ := shows
  have isInterface : rendering.context.interface = .ok interface := by
    simp only [EmitContext.interface, context, found]
    rfl
  refine ⟨_, by rw [EmitContext.methods, isInterface]; rfl, ?_⟩
  obtain ⟨index, inside, rfl⟩ := List.mem_iff_getElem.mp declared
  refine List.mem_map.mpr ⟨(index, interface.methods[index]), ?_, rfl⟩
  refine List.mem_filter.mpr ⟨List.mem_map.mpr ⟨(interface.methods[index], index), ?_, rfl⟩, visible⟩
  exact List.mk_mem_zipIdx_iff_getElem?.mpr (List.getElem?_eq_getElem inside)

end Rendering

section Spelling

variable {program : Program} {unit : CompiledUnit} {interface : InterfaceType}

/-- A unit that holds an interface has its name. -/
theorem CompiledUnit.Shape.name_eq (shape : unit.Shape program)
    (found : program.interfaceOf? unit = some interface) : interface.name = unit.name := by
  obtain ⟨id, isInterface, isTarget⟩ := Option.bind_eq_some_iff.mp found
  cases shape with
  | sequenceable _ _ noInterface => simp [noInterface] at isInterface
  | types _ noInterface => simp [noInterface] at isInterface
  | interface other _ isOther _ _ denotes =>
      obtain rfl : other = id := Option.some.inj (isOther.symm.trans isInterface)
      rw [Program.node_of_interface? isTarget] at denotes
      exact Option.some.inj denotes.2

/-- The code of a unit with an interface is made of words. -/
theorem EmitContext.Spelled.of_interface {options : Options} (reachable : program.Reachable)
    (listed : unit ∈ program.units) (found : program.interfaceOf? unit = some interface) :
    EmitContext.Spelled ⟨options, program, unit⟩ := by
  refine ⟨reachable.spelled, ?_⟩
  obtain ⟨id, -, isTarget⟩ := Option.bind_eq_some_iff.mp found
  have same := (reachable.wellFormed.units unit listed).shape.name_eq found
  refine reachable.spelled.types id unit.name ?_
  rw [Program.node_of_interface? isTarget, ← same]
  exact List.mem_cons_self

theorem Method.Spelled.of_interface {method : Method} (reachable : program.Reachable)
    (found : program.interfaceOf? unit = some interface) (listed : method ∈ interface.methods) :
    method.Spelled := by
  obtain ⟨id, -, isTarget⟩ := Option.bind_eq_some_iff.mp found
  have words : ∀ name ∈ method.name :: method.parameters.map Parameter.name, Text.IsWord name := by
    intro name inside
    refine reachable.spelled.types id name ?_
    rw [Program.node_of_interface? isTarget]
    exact List.mem_cons_of_mem _ (List.mem_flatMap.mpr ⟨method, listed, inside⟩)
  exact ⟨words _ List.mem_cons_self, fun parameter isParameter =>
    words _ (List.mem_cons_of_mem _ (List.mem_map_of_mem isParameter))⟩

theorem RecordType.Spelled.of_structs {context : EmitContext} {record : RecordType}
    (spelled : context.program.Spelled) (listed : record ∈ context.structs) : record.Spelled := by
  obtain ⟨id, -, node⟩ := EmitContext.mem_customTypes (EmitContext.mem_structs listed)
  have words : ∀ name ∈ record.name :: record.members.map Member.name, Text.IsWord name := by
    intro name inside
    refine spelled.types id name ?_
    rw [show context.program.types.node id = .struct record from node]
    exact inside
  exact ⟨words _ List.mem_cons_self, fun member isMember =>
    words _ (List.mem_cons_of_mem _ (List.mem_map_of_mem isMember))⟩

end Spelling

section Placement

variable {context : EmitContext} {methods : List (Nat × Method)} {method : Method}
variable {record : RecordType} {files : List GeneratedFile}

theorem CCode.contains_proxyMethod (shown : context.methods = .ok methods)
    (listed : method ∈ methods.map Prod.snd) (rendered : CCode.proxy context = .ok files) :
    ∃ code, CCode.proxyMethod context method = .ok code ∧ ∃ file ∈ files, file.Contains code := by
  unfold CCode.proxy at rendered
  obtain ⟨_, isMethods, rendered⟩ := Emit.bind_eq_ok.mp rendered
  cases shown.symm.trans isMethods
  obtain ⟨bodies, areBodies, rendered⟩ := Emit.bind_eq_ok.mp rendered
  cases rendered
  obtain ⟨code, isBody, rendersTo⟩ := Emit.exists_of_mapM areBodies listed
  refine ⟨code, rendersTo, _, List.mem_singleton_self _, ?_⟩
  exact (CCode.contains_source _ _ _ _ _).part_of (Code.infix_paragraphs (by simp [isBody]))

theorem CCode.contains_stubMethod (shown : context.methods = .ok methods)
    (listed : method ∈ methods.map Prod.snd) (rendered : CCode.stub context = .ok files) :
    ∃ code, CCode.stubMethod context method = .ok code ∧ ∃ file ∈ files, file.Contains code := by
  unfold CCode.stub at rendered
  obtain ⟨_, isMethods, rendered⟩ := Emit.bind_eq_ok.mp rendered
  cases shown.symm.trans isMethods
  obtain ⟨bodies, areBodies, rendered⟩ := Emit.bind_eq_ok.mp rendered
  cases rendered
  obtain ⟨code, isBody, rendersTo⟩ := Emit.exists_of_mapM areBodies listed
  refine ⟨code, rendersTo, _, List.mem_cons_of_mem _ (List.mem_singleton_self _), ?_⟩
  exact (CCode.contains_source _ _ _ _ _).part_of (Code.infix_paragraphs (by simp [isBody]))

theorem CppCode.contains_proxyMethod (shown : context.methods = .ok methods)
    (listed : method ∈ methods.map Prod.snd) (rendered : CppCode.proxy context = .ok files) :
    ∃ interface, context.interface = .ok interface ∧
      ∃ file ∈ files, file.Contains (CppCode.proxyMethod context interface method) := by
  unfold CppCode.proxy at rendered
  obtain ⟨interface, isInterface, rendered⟩ := Emit.bind_eq_ok.mp rendered
  obtain ⟨_, isMethods, rendered⟩ := Emit.bind_eq_ok.mp rendered
  cases shown.symm.trans isMethods
  cases rendered
  refine ⟨interface, isInterface, _, List.mem_cons_of_mem _ (List.mem_singleton_self _), ?_⟩
  refine (CppCode.contains_source _ _ _ _ _).part_of (Code.infix_paragraphs ?_)
  exact List.mem_append_right _ (List.mem_map_of_mem listed)

theorem CppCode.contains_stubMethod (shown : context.methods = .ok methods)
    (listed : method ∈ methods.map Prod.snd) (rendered : CppCode.stub context = .ok files) :
    ∃ file ∈ files, file.Contains (CppCode.stubMethod context method) := by
  unfold CppCode.stub at rendered
  obtain ⟨_, isMethods, rendered⟩ := Emit.bind_eq_ok.mp rendered
  cases shown.symm.trans isMethods
  cases rendered
  refine ⟨_, List.mem_cons_of_mem _ (List.mem_singleton_self _), ?_⟩
  refine (CppCode.contains_source _ _ _ _ _).part_of (Code.infix_paragraphs ?_)
  exact List.mem_append_right _ (List.mem_map_of_mem listed)

theorem CCode.contains_functions (listed : record ∈ context.structs)
    (rendered : CCode.customTypes context = .ok files) :
    ∃ writing reading, CCode.marshalling context.types record = .ok writing ∧
      CCode.unmarshalling context.types record = .ok reading ∧
      (∃ file ∈ files, file.Contains writing) ∧ ∃ file ∈ files, file.Contains reading := by
  unfold CCode.customTypes at rendered
  obtain ⟨definitions, -, rendered⟩ := Emit.bind_eq_ok.mp rendered
  obtain ⟨bodies, areBodies, rendered⟩ := Emit.bind_eq_ok.mp rendered
  cases rendered
  obtain ⟨functions, areFunctions, inside⟩ := Code.infix_forEach areBodies listed
  obtain ⟨writing, isWriting, areFunctions⟩ := Emit.bind_eq_ok.mp areFunctions
  obtain ⟨reading, isReading, areFunctions⟩ := Emit.bind_eq_ok.mp areFunctions
  obtain ⟨releasing, -, areFunctions⟩ := Emit.bind_eq_ok.mp areFunctions
  cases areFunctions
  have isLast {first last : GeneratedFile} : last ∈ [first, last] :=
    List.mem_cons_of_mem _ (List.mem_singleton_self last)
  refine ⟨writing, reading, isWriting, isReading, ⟨_, isLast, ?_⟩, ⟨_, isLast, ?_⟩⟩
  · exact (CCode.contains_source _ _ _ _ _).part_of
      ((Code.infix_paragraphs List.mem_cons_self).trans inside)
  · exact (CCode.contains_source _ _ _ _ _).part_of
      ((Code.infix_paragraphs (List.mem_cons_of_mem _ List.mem_cons_self)).trans inside)

theorem CppCode.contains_functions (listed : record ∈ context.structs) :
    (∃ file ∈ CppCode.customTypes context, file.Contains (CppCode.marshalling context record)) ∧
      ∃ file ∈ CppCode.customTypes context, file.Contains (CppCode.unmarshalling context record) := by
  have inside : CppCode.functions context record <:+: context.structs.flatMap (CppCode.functions context) :=
    List.infix_of_mem_flatten (List.mem_map_of_mem listed)
  have isLast {first last : GeneratedFile} : last ∈ [first, last] :=
    List.mem_cons_of_mem _ (List.mem_singleton_self last)
  refine ⟨⟨_, isLast, ?_⟩, ⟨_, isLast, ?_⟩⟩
  · exact (CppCode.contains_source _ _ _ _ _).part_of
      ((Code.infix_paragraphs List.mem_cons_self).trans inside)
  · exact (CppCode.contains_source _ _ _ _ _).part_of
      ((Code.infix_paragraphs (List.mem_cons_of_mem _ List.mem_cons_self)).trans inside)

end Placement

section Mirroring

variable {program : Program} {unit : CompiledUnit}

/-- What a proxy calls on its parcels is what a stub calls, behind a token with which the request
starts.  What the stub does only if a variable is set is left out of its request. -/
structure MirroredCalls (context : EmitContext) (token : List WireCall) (skip : Option String)
    (proxy stub : Code) : Prop where
  request : wireCalls none (context.localPrefix ++ "Data") (Code.text proxy) =
    token ++ wireCalls skip (context.localPrefix ++ "Data") (Code.text stub)
  reply : wireCalls none (context.localPrefix ++ "Reply") (Code.text stub) =
    wireCalls none (context.localPrefix ++ "Reply") (Code.text proxy)

/-- The call that writes the token of an interface in C++. -/
def tokenCall : WireCall := ⟨.plain "InterfaceToken".toList, 0⟩

/-- In C the stub of a method mirrors its proxy. -/
def CCode.MirrorsMethod (client : Rendering program unit .c .proxy)
    (server : Rendering program unit .c .stub) (method : Method) : Prop :=
  ∃ proxy stub, CCode.proxyMethod client.context method = .ok proxy ∧ client.Holds proxy ∧
    CCode.stubMethod server.context method = .ok stub ∧ server.Holds stub ∧
    MirroredCalls client.context [] none proxy stub

/-- In C++ the stub of a method mirrors its proxy, but for the token and what depends on the flag. -/
def CppCode.MirrorsMethod (client : Rendering program unit .cpp .proxy)
    (server : Rendering program unit .cpp .stub) (method : Method) : Prop :=
  ∃ interface, client.context.interface = .ok interface ∧
    client.Holds (CppCode.proxyMethod client.context interface method) ∧
    server.Holds (CppCode.stubMethod server.context method) ∧
    MirroredCalls client.context [tokenCall] (some (client.context.localPrefix ++ "MemSet"))
      (CppCode.proxyMethod client.context interface method)
      (CppCode.stubMethod server.context method)

/-- In C the function that reads a struct mirrors the one that writes it. -/
def CCode.MirrorsStruct (build : Rendering program unit .c .customTypes) (record : RecordType) :
    Prop :=
  ∃ writing reading, CCode.marshalling program.types record = .ok writing ∧
    CCode.unmarshalling program.types record = .ok reading ∧
    build.Holds writing ∧ build.Holds reading ∧
    wireCalls none "data" (Code.text writing) = wireCalls none "data" (Code.text reading)

/-- In C++ the function that reads a struct mirrors the one that writes it. -/
def CppCode.MirrorsStruct (build : Rendering program unit .cpp .customTypes) (record : RecordType) :
    Prop :=
  build.Holds (CppCode.marshalling build.context record) ∧
    build.Holds (CppCode.unmarshalling build.context record) ∧
    wireCalls none "data" (Code.text (CppCode.marshalling build.context record)) =
      wireCalls none "data" (Code.text (CppCode.unmarshalling build.context record))

theorem CCode.mirrors_method (reachable : program.Reachable) (listed : unit ∈ program.units)
    (client : Rendering program unit .c .proxy) (server : Rendering program unit .c .stub)
    {method : Method} (sent : client.Shows method) (served : server.Shows method) :
    MirrorsMethod client server method := by
  obtain ⟨proxies, proxiesRendered, areProxies⟩ := client.artifact_rendered rfl
  obtain ⟨stubs, stubsRendered, areStubs⟩ := server.artifact_rendered rfl
  obtain ⟨sentMethods, areSent, isSent⟩ := sent.listed
  obtain ⟨servedMethods, areServed, isServed⟩ := served.listed
  obtain ⟨proxy, isProxy, inProxies⟩ := contains_proxyMethod areSent isSent proxiesRendered
  obtain ⟨stub, isStub, inStubs⟩ := contains_stubMethod areServed isServed stubsRendered
  obtain ⟨interface, found, declared, -⟩ := sent
  have isMethod : method.Spelled := .of_interface reachable found declared
  have spelled (options : Options) : EmitContext.Spelled ⟨options, program, unit⟩ :=
    .of_interface reachable listed found
  obtain ⟨request, reply⟩ := wireCalls_proxyMethod (spelled client.options) isMethod isProxy
  obtain ⟨requestRead, replyWritten⟩ := wireCalls_stubMethod (spelled server.options) isMethod isStub
  refine ⟨proxy, stub, isProxy, Rendering.holds_of_contains areProxies inProxies, isStub,
    Rendering.holds_of_contains areStubs inStubs, ?_, replyWritten.trans reply.symm⟩
  rw [List.nil_append]
  exact request.trans requestRead.symm

theorem CppCode.mirrors_method (reachable : program.Reachable) (listed : unit ∈ program.units)
    (client : Rendering program unit .cpp .proxy) (server : Rendering program unit .cpp .stub)
    {method : Method} (sent : client.Shows method) (served : server.Shows method) :
    MirrorsMethod client server method := by
  obtain ⟨proxies, proxiesRendered, areProxies⟩ := client.artifact_rendered rfl
  obtain ⟨stubs, stubsRendered, areStubs⟩ := server.artifact_rendered rfl
  obtain ⟨sentMethods, areSent, isSent⟩ := sent.listed
  obtain ⟨servedMethods, areServed, isServed⟩ := served.listed
  obtain ⟨interface, isInterface, inProxies⟩ := contains_proxyMethod areSent isSent proxiesRendered
  have inStubs := contains_stubMethod areServed isServed stubsRendered
  obtain ⟨_, found, declared, -⟩ := sent
  have isMethod : method.Spelled := .of_interface reachable found declared
  have spelled (options : Options) : EmitContext.Spelled ⟨options, program, unit⟩ :=
    .of_interface reachable listed found
  obtain ⟨request, reply⟩ := wireCalls_proxyMethod interface (spelled client.options) isMethod
  obtain ⟨requestRead, replyWritten⟩ := wireCalls_stubMethod (spelled server.options) isMethod
  have sameRequest := @requestShape_of_options program unit client.options server.options method
  have sameReply := @replyShape_of_options program unit client.options server.options method
  refine ⟨interface, isInterface, Rendering.holds_of_contains areProxies inProxies,
    Rendering.holds_of_contains areStubs inStubs, ?_, ?_⟩
  · rw [List.singleton_append]
    exact request.trans (congrArg (tokenCall :: ·) (sameRequest.trans requestRead.symm))
  · exact (replyWritten.trans sameReply.symm).trans reply.symm

theorem CCode.mirrors_struct (reachable : program.Reachable)
    (build : Rendering program unit .c .customTypes) {record : RecordType}
    (listed : record ∈ build.context.structs) : MirrorsStruct build record := by
  obtain ⟨own, rendered, areOwn⟩ := build.artifact_rendered rfl
  obtain ⟨writing, reading, isWriting, isReading, holdsWriting, holdsReading⟩ :=
    contains_functions listed rendered
  have isRecord : record.Spelled := .of_structs reachable.spelled listed
  refine ⟨writing, reading, isWriting, isReading, Rendering.holds_of_contains areOwn holdsWriting,
    Rendering.holds_of_contains areOwn holdsReading, ?_⟩
  exact (wireCalls_marshalling reachable.spelled.types isRecord isWriting).trans
    (wireCalls_unmarshalling reachable.spelled.types isRecord isReading).symm

theorem CppCode.mirrors_struct (reachable : program.Reachable)
    (build : Rendering program unit .cpp .customTypes) {record : RecordType}
    (listed : record ∈ build.context.structs) : MirrorsStruct build record := by
  obtain ⟨own, rendered, areOwn⟩ := build.artifact_rendered rfl
  cases rendered
  obtain ⟨holdsWriting, holdsReading⟩ := contains_functions listed
  have isRecord : record.Spelled := .of_structs reachable.spelled listed
  obtain ⟨written, read⟩ := @wireCalls_block build.context record reachable.spelled isRecord
  exact ⟨Rendering.holds_of_contains areOwn holdsWriting,
    Rendering.holds_of_contains areOwn holdsReading, written.trans read.symm⟩

/-- Both sides of a connection call the same parcel functions: for each method that both builds show,
the stub reads the request that the proxy writes, and the proxy reads the reply that the stub writes.
The functions that write and read a struct mirror each other as well. -/
theorem Program.rendered_wire_code_mirrors (reachable : program.Reachable)
    (listed : unit ∈ program.units) :
    (∀ (client : Rendering program unit .c .proxy) (server : Rendering program unit .c .stub)
        (method : Method), client.Shows method → server.Shows method →
      CCode.MirrorsMethod client server method) ∧
    (∀ (client : Rendering program unit .cpp .proxy) (server : Rendering program unit .cpp .stub)
        (method : Method), client.Shows method → server.Shows method →
      CppCode.MirrorsMethod client server method) ∧
    (∀ build : Rendering program unit .c .customTypes, ∀ record ∈ build.context.structs,
      CCode.MirrorsStruct build record) ∧
    (∀ build : Rendering program unit .cpp .customTypes, ∀ record ∈ build.context.structs,
      CppCode.MirrorsStruct build record) :=
  ⟨fun client server _ sent served => CCode.mirrors_method reachable listed client server sent served,
    fun client server _ sent served => CppCode.mirrors_method reachable listed client server sent served,
    fun build _ isStruct => CCode.mirrors_struct reachable build isStruct,
    fun build _ isStruct => CppCode.mirrors_struct reachable build isStruct⟩

/-- A file with an interface whose method has results with capacities. -/
def swapSource : String :=
  "package a.v1_0; interface IFoo \x7b Swap([in] List<int> left, [out] List<int> right, " ++
    "[out] String note); \x7d"

/-- What comes of the file for a target language. -/
def swapOutcome (language : Language) : ParseOutcome :=
  ({} : Program).parseSource { language := some language } [] ⟨"a/v1_0/IFoo.idl"⟩ swapSource

theorem swapOutcome_spec : ∀ language ∈ [Language.c, .cpp],
    (swapOutcome language).accepted = true ∧
      (∀ type < (swapOutcome language).program.types.size,
        ∀ element ∈ ((swapOutcome language).program.types.node type).elements,
          supportFault? { language := some language } (swapOutcome language).program.types element =
            none) ∧
      ∃ unit ∈ (swapOutcome language).program.units[0]?, unit.kind = .interface ∧
        ∃ interface ∈ (swapOutcome language).program.interfaceOf? unit, interface.attributes = {} ∧
          ∃ method ∈ interface.methods, method.name = "Swap" ∧ method.attributes = {} := by
  decide +kernel

/-- The unit of the file is rendered with both sides, which show its method. -/
theorem swap_renders {language : Language} (native : language ∈ [Language.c, .cpp]) :
    ∃ unit ∈ (swapOutcome language).program.units,
      ∃ (client : Rendering (swapOutcome language).program unit language .proxy)
        (server : Rendering (swapOutcome language).program unit language .stub) (method : Method),
        method.name = "Swap" ∧ client.Shows method ∧ server.Shows method := by
  obtain ⟨accepted, elements, unit, present, kind, interface, found, shown, method, declared, named,
    always⟩ := swapOutcome_spec language native
  have listed := Array.mem_of_getElem? present
  have underOptions : (swapOutcome language).program.AcceptedUnder { language := some language } :=
    .parse _ _ _ .empty accepted
  have expressible := Program.expressible_of_arrays underOptions.reachable.wellFormed
    underOptions.supported listed fun array element _ isArray => by
      rcases Nat.lt_or_ge array (swapOutcome language).program.types.size with inside | outside
      · exact elements array inside element (by simp [isArray, TypeNode.elements])
      · rw [TypeArena.node_of_size_le outside] at isArray
        cases isArray
  obtain ⟨files, rendered⟩ := Program.render_eq_ok rfl expressible (.inr (.inr ⟨interface, found⟩))
  have isShown : (swapOutcome language).program.shows { language := some language } unit = true := by
    rw [Program.shows, show (swapOutcome language).program.interfaceOf? unit = some interface from found]
    simp [shown, Attributes.visible]
  have selected (artifact : Artifact) (isSide : artifact = .proxy ∨ artifact = .stub) :
      artifact ∈ Artifact.forUnit unit.kind (Options.buildTarget { language := some language }) := by
    rw [kind]
    rcases isSide with rfl | rfl <;> simp [Artifact.forUnit]
  refine ⟨unit, listed, ⟨_, files, isShown, selected .proxy (.inl rfl), rendered⟩,
    ⟨_, files, isShown, selected .stub (.inr rfl), rendered⟩, method, named, ?_, ?_⟩ <;>
  exact ⟨interface, found, declared, by simp [always, Attributes.visible]⟩

/-- Both sides of a method that swaps lists, in C and in C++. -/
theorem rendered_wire_code_mirrors_swap :
    (∃ unit ∈ (swapOutcome .c).program.units,
      ∃ (client : Rendering (swapOutcome .c).program unit .c .proxy)
        (server : Rendering (swapOutcome .c).program unit .c .stub) (method : Method),
        method.name = "Swap" ∧ CCode.MirrorsMethod client server method) ∧
    ∃ unit ∈ (swapOutcome .cpp).program.units,
      ∃ (client : Rendering (swapOutcome .cpp).program unit .cpp .proxy)
        (server : Rendering (swapOutcome .cpp).program unit .cpp .stub) (method : Method),
        method.name = "Swap" ∧ CppCode.MirrorsMethod client server method := by
  have reachable (language : Language) : (swapOutcome language).program.Reachable :=
    .parse _ _ _ _ .empty
  obtain ⟨unit, listed, client, server, method, named, sent, served⟩ :=
    swap_renders (by decide : Language.c ∈ [Language.c, .cpp])
  obtain ⟨inC, -⟩ := Program.rendered_wire_code_mirrors (reachable .c) listed
  obtain ⟨other, isOther, otherClient, otherServer, otherMethod, otherNamed, otherSent, otherServed⟩ :=
    swap_renders (by decide : Language.cpp ∈ [Language.c, .cpp])
  obtain ⟨-, inCpp, -⟩ := Program.rendered_wire_code_mirrors (reachable .cpp) isOther
  exact ⟨⟨unit, listed, client, server, method, named, inC client server method sent served⟩,
    other, isOther, otherClient, otherServer, otherMethod, otherNamed,
    inCpp otherClient otherServer otherMethod otherSent otherServed⟩

end Mirroring

end DriverIdl
