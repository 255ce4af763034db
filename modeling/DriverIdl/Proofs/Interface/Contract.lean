import DriverIdl.Emit.Basic
import DriverIdl.Proofs.Interface.Methods
import DriverIdl.Proofs.Program.Reachable
import Mathlib.Data.List.Zip

/-!
# The contract of interfaces

A fault in an interface is reported, and reading goes on with a list that leaves the faulty part
out.  So the contract holds of what accepted texts have added, and every interface of a program is
one of these: `Reachable.introduced`.  From then on an interface changes by its mark only, and what
the run over its body has found stays true.

Commands are numbered before a build hides any method, so all builds share one numbering.
-/

namespace DriverIdl

open Parse

/-- The method that answers the version of an interface: it is added to those of the source, and two
unsigned integers come out of it. -/
structure Method.IsVersionQuery (arena : TypeArena) (method : Method) : Prop where
  synthesized : method.synthesized = true
  name : method.name = "GetVersion"
  attributes : method.attributes = {}
  parameters :
    method.parameters.map (fun parameter =>
        (parameter.name, parameter.direction, arena.node parameter.type)) =
      [("majorVer", .outward, .primitive .uint), ("minorVer", .outward, .primitive .uint)]

theorem Method.isVersionQuery_version {arena : TypeArena} (sound : arena.Sound) (place : Position) :
    (version place).IsVersionQuery arena where
  synthesized := rfl
  name := rfl
  attributes := rfl
  parameters := by simp [version, majorName, minorName, sound.node_primitive]

theorem Method.directed_of_mem_version {arena : TypeArena} (sound : arena.Sound) {place : Position}
    {parameter : Parameter} (listed : parameter ∈ (version place).parameters) :
    parameter.Directed arena := by
  intro target found
  have isUint : parameter.type = Primitive.uint.id := by
    simp only [version, List.mem_cons, List.not_mem_nil, or_false] at listed
    rcases listed with rfl | rfl <;> rfl
  -- Neither result of a version query is an interface.
  simp [TypeArena.interface?, isUint, sound.node_primitive] at found

namespace InterfaceType

/-- What an interface promises to those who call it and to those who answer. -/
structure KeepsContract (arena : TypeArena) (declared : InterfaceType) : Prop where
  methods_eq : ∃ version, declared.methods = declared.userMethods ++ [version] ∧
    version.IsVersionQuery arena
  declares : declared.userMethods ≠ []
  distinct : (declared.methods.map Method.name).Nodup
  unreserved : ∀ method ∈ declared.userMethods, method.name ≠ "GetVersion"
  parameters_distinct : ∀ method ∈ declared.methods,
    (method.parameters.map Parameter.name).Nodup
  directed : ∀ method ∈ declared.methods, ∀ parameter ∈ method.parameters,
    parameter.Directed arena

/-- A command of a build as it is seen from outside: its number and its name. -/
def label (command : Nat × Method) : Nat × String := (command.1, command.2.name)

/-- Methods are numbered in order, whatever a build shows of them.  The highest number is that of
the version query, which all builds show. -/
structure SharesNumbering (declared : InterfaceType) : Prop where
  commands_eq : declared.commands = (List.range declared.methods.length).zip declared.methods
  last : (declared.commands.map label).getLast? = some (declared.userMethods.length, "GetVersion")
  highest : ∀ command ∈ declared.commands, command.1 ≤ declared.userMethods.length
  shown : ∀ context : EmitContext, context.interface = .ok declared →
    ∃ commands, context.methods = .ok commands ∧
      (commands.map label).Sublist (declared.commands.map label) ∧
      (declared.userMethods.length, "GetVersion") ∈ commands.map label

theorem commands_eq_zip (declared : InterfaceType) :
    declared.commands = (List.range declared.methods.length).zip declared.methods := by
  rw [List.range_eq_range', ← List.zip_swap, ← List.zipIdx_eq_zip_range']
  rfl

theorem commands_eq_append {declared : InterfaceType} {version : Method}
    (methods : declared.methods = declared.userMethods ++ [version]) :
    declared.commands = declared.userMethods.zipIdx.map Prod.swap ++
      [(declared.userMethods.length, version)] := by
  have swapped : declared.commands = declared.methods.zipIdx.map Prod.swap := rfl
  rw [swapped, methods, List.zipIdx_append, List.map_append]
  simp

theorem sharesNumbering {declared : InterfaceType} {version : Method} {arena : TypeArena}
    (methods : declared.methods = declared.userMethods ++ [version])
    (isVersion : version.IsVersionQuery arena) : declared.SharesNumbering where
  commands_eq := declared.commands_eq_zip
  last := by simp [commands_eq_append methods, label, isVersion.name]
  highest command listed := by
    rw [commands_eq_zip] at listed
    obtain ⟨inRange, -⟩ := List.of_mem_zip listed
    have below := List.mem_range.mp inRange
    rw [methods, List.length_append, List.length_singleton] at below
    omega
  shown context isInterface := by
    refine ⟨_, by simp only [EmitContext.methods, isInterface]; rfl,
      List.filter_sublist.map label, ?_⟩
    have isShown : version.attributes.visible context.kernel = true := by
      rw [isVersion.attributes]
      cases context.kernel <;> rfl
    apply List.mem_map.mpr
    refine ⟨(declared.userMethods.length, version), List.mem_filter.mpr ⟨?_, isShown⟩, ?_⟩
    · simp [commands_eq_append methods]
    · rw [label, isVersion.name]

end InterfaceType

section Texts

variable {options : Options} {tokens : List Token} {arena : TypeArena} {declared : InterfaceType}

/-- What the text of an interface settles about its methods. -/
structure SpelledMethods (options : Options) (tokens : List Token) (arena : TypeArena)
    (declared : InterfaceType) : Prop where
  methods_eq : declared.methods = declared.userMethods ++ [Method.version declared.place]
  declares : declared.userMethods ≠ []
  distinct : (declared.userMethods.map Method.name).Nodup
  unreserved : ∀ method ∈ declared.userMethods, method.name ≠ Method.versionName
  proper : ∀ method ∈ declared.userMethods,
    ProperMethod options 0 declared.attributes arena method
  text : InterfaceText tokens declared

theorem Parse.Written.userMethods_eq {opened read : ParseState} {methods : List Method}
    (written : Written options tokens declared opened methods read)
    (proper : ∀ method ∈ methods, ProperMethod options 0 declared.attributes read.types method) :
    declared.userMethods = methods := by
  rw [InterfaceType.userMethods, written.methods_eq, List.filter_append, List.filter_eq_self.mpr]
  · simp [Method.version]
  · intro method listed
    rw [(proper method listed).declared]
    rfl

theorem Parse.FromText.spelledMethods (fromText : FromText options tokens arena declared) :
    SpelledMethods options tokens arena declared := by
  obtain ⟨opened, methods, read, written, notEmpty, types⟩ := fromText
  have reading : Reading options 0 True opened _ _ := .methods declared.attributes
  obtain ⟨-, -, seen⟩ :=
    (reading.ok written.run written.sound.since).2 written.clean trivial written.sound
  have proper := fun method listed => (seen method listed).1
  have cutting : Ensures 0 True opened (Parse.methods options declared.attributes) _ :=
    .methodTexts declared.attributes
  obtain ⟨-, texts, closing, split, isClosing, spelled⟩ :=
    (cutting.ok written.run written.sound.since).2 written.clean trivial written.sound
  obtain ⟨distinct, unreserved⟩ := distinct_of_methods written.run
  obtain ⟨early, keyword, opening, whole, isKeyword, isOpening⟩ := written.head
  -- All that was read is declared, so the version query is the only method that is not.
  obtain rfl := written.userMethods_eq proper
  exact
    { methods_eq := written.methods_eq
      declares := notEmpty
      distinct := distinct
      unreserved := unreserved
      proper := fun method listed => (proper method listed).extend types
      text := ⟨early, keyword, opening, texts, closing, read.tokens, by rw [whole, split],
        isKeyword, isOpening, isClosing, spelled⟩ }

theorem SpelledMethods.user_or_version (spelled : SpelledMethods options tokens arena declared)
    {method : Method} (listed : method ∈ declared.methods) :
    method ∈ declared.userMethods ∨ method = Method.version declared.place := by
  rw [spelled.methods_eq] at listed
  exact (List.mem_append.mp listed).imp_right List.mem_singleton.mp

theorem SpelledMethods.keepsContract (sound : arena.Sound)
    (spelled : SpelledMethods options tokens arena declared) : declared.KeepsContract arena where
  methods_eq := ⟨_, spelled.methods_eq, Method.isVersionQuery_version sound declared.place⟩
  declares := spelled.declares
  distinct := by
    rw [spelled.methods_eq, List.map_append, List.nodup_append]
    refine ⟨spelled.distinct, by simp, ?_⟩
    rintro name listed other isVersion rfl
    obtain ⟨method, isUser, rfl⟩ := List.mem_map.mp listed
    exact spelled.unreserved method isUser (by simpa [Method.version] using isVersion)
  unreserved := spelled.unreserved
  parameters_distinct method listed := by
    rcases spelled.user_or_version listed with isUser | rfl
    · exact (spelled.proper method isUser).parameters.distinct
    · simp [Method.version, Method.majorName, Method.minorName]
  directed method listed parameter isParameter := by
    rcases spelled.user_or_version listed with isUser | rfl
    · exact ((spelled.proper method isUser).parameters.each parameter isParameter).directed
    · exact Method.directed_of_mem_version sound isParameter

end Texts

theorem TypeArena.unmarked?_initial (id : TypeId) : ({} : TypeArena).unmarked? id = none := by
  rcases Nat.lt_or_ge id Primitive.all.length with inside | outside
  · have noInterface : ∀ index < Primitive.all.length,
        ({} : TypeArena).unmarked? index = none := by decide
    exact noInterface id inside
  · exact unmarked?_of_size_le outside

namespace Program

variable {program : Program} {id : TypeId} {declared : InterfaceType}

/-- A text that was accepted has brought an interface into a program. -/
structure Introduces (earlier : Program) (options : Options) (diagnostics : List Diagnostic)
    (path : Path) (source : String) (id : TypeId) (declared : InterfaceType) : Prop where
  reachable : earlier.Reachable
  accepted : (earlier.parseSource options diagnostics path source).accepted = true
  absent : earlier.types.unmarked? id = none
  present : (earlier.parseSource options diagnostics path source).program.types.unmarked? id =
    some declared

/-- An interface that is there behind a text and was not before is spelled by the text, which was
accepted. -/
theorem WellFormed.new_interface (wellFormed : program.WellFormed) {options : Options}
    {diagnostics : List Diagnostic} {path : Path} {source : String}
    (absent : program.types.unmarked? id = none)
    (present : (program.parseSource options diagnostics path source).program.types.unmarked? id =
      some declared) :
    (program.parseSource options diagnostics path source).accepted = true ∧
      FromText options (sourceTokens source)
        (program.parseSource options diagnostics path source).program.types declared := by
  have grown := wellFormed.types_extends options diagnostics path source
  obtain ⟨read, advanced, rejects | accepts⟩ :=
    parseSource_cases wellFormed options diagnostics path source
  · -- A refused text leaves no type behind.
    obtain ⟨size, -⟩ := rejects.types advanced wellFormed.types
    rcases Nat.lt_or_ge id program.types.size with inside | outside
    · rw [grown.unmarked?_eq inside, absent] at present
      cases present
    · rw [TypeArena.unmarked?_of_size_le (by rw [size]; exact outside)] at present
      cases present
  · refine ⟨accepts.accepted, ?_⟩
    rw [accepts.types_eq] at present ⊢
    refine (accepts.built.interfaces id declared present).resolve_left fun early => ?_
    have noneEarly : (ParseState.start program diagnostics path source).types.unmarked? id = none :=
      absent
    rw [noneEarly] at early
    cases early

/-- Every interface of a program was brought in by a text that spells it. -/
theorem Reachable.introduced (reachable : program.Reachable)
    (found : program.types.unmarked? id = some declared) :
    ∃ earlier options diagnostics path source,
      Introduces earlier options diagnostics path source id declared ∧
        FromText options (sourceTokens source) program.types declared := by
  induction reachable with
  | empty => simp [TypeArena.unmarked?_initial] at found
  | @parse program options diagnostics path source reachable ih =>
      have wellFormed := reachable.wellFormed
      have grown := wellFormed.types_extends options diagnostics path source
      -- Either the last text brought the interface in, or an earlier one did.
      cases early : program.types.unmarked? id with
      | none =>
          obtain ⟨accepted, fromText⟩ := wellFormed.new_interface early found
          exact ⟨program, options, diagnostics, path, source, ⟨reachable, accepted, early, found⟩,
            fromText⟩
      | some old =>
          have inside : id < program.types.size := by
            by_contra outside
            rw [TypeArena.unmarked?_of_size_le (Nat.le_of_not_lt outside)] at early
            cases early
          obtain rfl : old = declared := by simpa [grown.unmarked?_eq inside, early] using found
          obtain ⟨earlier, options, diagnostics, path, source, introduces, fromText⟩ := ih early
          exact ⟨earlier, options, diagnostics, path, source, introduces,
            fromText.mono (List.suffix_refl _) grown⟩

theorem Reachable.spelledMethods (reachable : program.Reachable)
    (isInterface : program.types.node id = .interface declared) :
    ∃ earlier options diagnostics path source,
      Introduces earlier options diagnostics path source id
          { declared with serializable := false } ∧
        SpelledMethods options (sourceTokens source) program.types declared := by
  have unmarked : program.types.unmarked? id = some { declared with serializable := false } := by
    rw [TypeArena.unmarked?, isInterface]
    rfl
  obtain ⟨earlier, options, diagnostics, path, source, introduces, fromText⟩ :=
    reachable.introduced unmarked
  exact ⟨earlier, options, diagnostics, path, source, introduces,
    { fromText.spelledMethods with }⟩

/-- Every interface of a program keeps its contract.  The methods that it declares are those that
stand in the body of the text that brought it in, in this order, and their commands are numbered
alike in all builds. -/
theorem reachable_interface_contract (reachable : program.Reachable)
    (isInterface : program.types.node id = .interface declared) :
    declared.KeepsContract program.types ∧
      (∃ earlier options diagnostics path source,
        Introduces earlier options diagnostics path source id
            { declared with serializable := false } ∧
          InterfaceText (sourceTokens source) declared) ∧
      declared.SharesNumbering := by
  obtain ⟨earlier, options, diagnostics, path, source, introduces, spelled⟩ :=
    reachable.spelledMethods isInterface
  have contract := spelled.keepsContract reachable.wellFormed.types
  obtain ⟨version, methods, isVersion⟩ := contract.methods_eq
  exact ⟨contract, ⟨earlier, options, diagnostics, path, source, introduces, spelled.text⟩,
    InterfaceType.sharesNumbering methods isVersion⟩

/-- A file with a callback. -/
def callbackSource : String :=
  "package a.v1_0; [callback] interface IBack \x7b Tell(); \x7d"

/-- A file with methods that some builds hide, one of which takes the callback. -/
def playerSource : String :=
  "package a.v1_0; import a.v1_0.IBack; interface IPlayer \x7b " ++
    "[full] Play([in] IBack b); [lite] Stop(); \x7d"

/-- What comes of both files. -/
def playerOutcome : ParseOutcome :=
  (({} : Program).parseSource {} [] ⟨"a/v1_0/IBack.idl"⟩ callbackSource).program.parseSource {} []
    ⟨"a/v1_0/IPlayer.idl"⟩ playerSource

theorem playerOutcome_spec :
    (playerOutcome.program.types.interface? (Primitive.all.length + 1)).map
        (fun declared => declared.commands.map InterfaceType.label) =
      some [(0, "Play"), (1, "Stop"), (2, "GetVersion")] := by
  decide +kernel

theorem node_of_interface? {arena : TypeArena} (found : arena.interface? id = some declared) :
    arena.node id = .interface declared := by
  unfold TypeArena.interface? at found
  split at found
  · rename_i node
    rw [node, Option.some.inj found]
  · cases found

theorem player_keeps_contract : playerOutcome.program.Reachable ∧
    ∃ id declared, playerOutcome.program.types.node id = .interface declared ∧
      declared.commands.map InterfaceType.label = [(0, "Play"), (1, "Stop"), (2, "GetVersion")] ∧
      declared.KeepsContract playerOutcome.program.types ∧ declared.SharesNumbering := by
  have reachable : playerOutcome.program.Reachable :=
    .parse {} [] ⟨"a/v1_0/IPlayer.idl"⟩ playerSource
      (.parse {} [] ⟨"a/v1_0/IBack.idl"⟩ callbackSource .empty)
  obtain ⟨declared, found, labels⟩ := Option.map_eq_some_iff.mp playerOutcome_spec
  have isInterface := node_of_interface? found
  obtain ⟨contract, -, numbering⟩ := reachable_interface_contract reachable isInterface
  exact ⟨reachable, _, declared, isInterface, labels, contract, numbering⟩

/-- A method that returns at once has no result, unless it is the version query of an interface all
of whose methods return at once.  Such a query is added without looking at the attributes of the
interface, and its two results stay. -/
theorem reachable_oneway_results (reachable : program.Reachable)
    (isInterface : program.types.node id = .interface declared) {method : Method}
    (listed : method ∈ declared.methods) (isOneway : declared.isOneway method = true) :
    method ∈ declared.userMethods ∧ method.outParameters = [] ∨
      method.IsVersionQuery program.types ∧ declared.attributes.oneway = true ∧
        method.outParameters.length = 2 := by
  obtain ⟨earlier, options, diagnostics, path, source, -, spelled⟩ :=
    reachable.spelledMethods isInterface
  rcases spelled.user_or_version listed with isUser | rfl
  · exact .inl ⟨isUser, (spelled.proper method isUser).oneway isOneway⟩
  · refine .inr ⟨Method.isVersionQuery_version reachable.wellFormed.types declared.place, ?_, rfl⟩
    simpa [InterfaceType.isOneway, Method.version] using isOneway

/-- A file with an interface all of whose methods return at once. -/
def onewaySource : String :=
  "package a.v1_0; [oneway] interface IFoo \x7b Ping([in] int x); \x7d"

/-- What comes of the file. -/
def onewayOutcome : ParseOutcome :=
  ({} : Program).parseSource {} [] ⟨"a/v1_0/IFoo.idl"⟩ onewaySource

theorem onewayOutcome_spec : onewayOutcome.accepted = true ∧
    (onewayOutcome.program.types.interface? Primitive.all.length).map (fun declared =>
        declared.methods.map fun method =>
          (method.name, declared.isOneway method, method.outParameters.length)) =
      some [("Ping", true, 0), ("GetVersion", true, 2)] := by
  decide +kernel

theorem oneway_ping_has_no_result : onewayOutcome.program.Reachable ∧
    ∃ id declared, onewayOutcome.program.types.node id = .interface declared ∧
      ∃ method ∈ declared.methods, declared.isOneway method = true ∧ method.name = "Ping" ∧
        method.outParameters = [] := by
  have reachable : onewayOutcome.program.Reachable :=
    .parse {} [] ⟨"a/v1_0/IFoo.idl"⟩ onewaySource .empty
  obtain ⟨declared, found, shapes⟩ := Option.map_eq_some_iff.mp onewayOutcome_spec.2
  have isInterface := node_of_interface? found
  have isListed : ("Ping", true, 0) ∈ declared.methods.map fun method =>
      (method.name, declared.isOneway method, method.outParameters.length) := by simp [shapes]
  obtain ⟨method, listed, shape⟩ := List.mem_map.mp isListed
  simp only [Prod.mk.injEq] at shape
  refine ⟨reachable, _, declared, isInterface, method, listed, shape.2.1, shape.1, ?_⟩
  rcases reachable_oneway_results reachable isInterface listed shape.2.1 with
    ⟨-, noResult⟩ | ⟨isVersion, -⟩
  · exact noResult
  · simp [isVersion.name] at shape

/-- An accepted interface whose version query returns at once and yet has results. -/
theorem oneway_version_query_has_results : onewayOutcome.accepted = true ∧
    ∃ id declared, onewayOutcome.program.types.node id = .interface declared ∧
      ∃ method ∈ declared.methods, declared.isOneway method = true ∧ method.outParameters ≠ [] := by
  obtain ⟨accepted, shown⟩ := onewayOutcome_spec
  obtain ⟨declared, found, shapes⟩ := Option.map_eq_some_iff.mp shown
  have isListed : ("GetVersion", true, 2) ∈ declared.methods.map fun method =>
      (method.name, declared.isOneway method, method.outParameters.length) := by simp [shapes]
  obtain ⟨method, listed, shape⟩ := List.mem_map.mp isListed
  simp only [Prod.mk.injEq] at shape
  refine ⟨accepted, _, declared, node_of_interface? found, method, listed, shape.2.1, ?_⟩
  intro none
  simp [none] at shape

end Program

end DriverIdl
