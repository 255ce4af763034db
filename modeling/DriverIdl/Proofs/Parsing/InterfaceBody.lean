import DriverIdl.Proofs.Parsing.Declaration

/-!
# What an interface builds

The parameters of methods are type expressions, and a clean run has found nothing wrong with the
names and directions of the parameters.  An interface looks its own name up in the table of the unit
like any type, but does not ask whether the name is new: a type that is visible under that name
already stands in for it.
-/

namespace DriverIdl

/-- A callback is passed in, and any other interface comes out. -/
def Parameter.Directed (arena : TypeArena) (parameter : Parameter) : Prop :=
  ∀ target, arena.interface? parameter.type = some target →
    parameter.direction = if target.isCallback then .inward else .outward

theorem Parameter.Directed.extend {arena after : TypeArena} {parameter : Parameter}
    (directed : parameter.Directed arena) (grown : arena.Extends after)
    (inside : parameter.type < arena.size) : parameter.Directed after := by
  intro target found
  have same := grown.unmarked?_eq inside
  rw [TypeArena.unmarked?_eq, TypeArena.unmarked?_eq, found] at same
  obtain ⟨earlier, foundEarlier, unmarked⟩ := Option.map_eq_some_iff.mp same.symm
  have sameAttributes : earlier.attributes = target.attributes := by
    simpa using congrArg InterfaceType.attributes unmarked
  rw [directed earlier foundEarlier, InterfaceType.isCallback, InterfaceType.isCallback,
    sameAttributes]

namespace Parse

open ParseState

variable {mark : Nat} {known : Prop} {before : ParseState} {options : Options}

/-- A parameter without a fault. -/
structure ProperParameter (options : Options) (mark : Nat) (arena : TypeArena)
    (parameter : Parameter) : Prop where
  named : Text.IsWord parameter.name
  own : arena.OwnFrom mark parameter.type
  usable : Usable options arena parameter.type
  directed : parameter.Directed arena

/-- Parameters without a fault. -/
structure ProperParameters (options : Options) (mark : Nat) (arena : TypeArena)
    (parameters : List Parameter) : Prop where
  each : ∀ parameter ∈ parameters, ProperParameter options mark arena parameter
  distinct : (parameters.map Parameter.name).Nodup

/-- Parameters without a fault, of types that the unit sees. -/
structure SeenParameters (options : Options) (mark : Nat) (state : ParseState)
    (parameters : List Parameter) : Prop extends
    ProperParameters options mark state.types parameters where
  sees : ∀ parameter ∈ parameters, state.unit.Sees parameter.type

/-- A method without a fault, in an interface with some attributes. -/
structure ProperMethod (options : Options) (mark : Nat) (interfaceAttributes : Attributes)
    (arena : TypeArena) (method : Method) : Prop where
  named : Text.IsWord method.name
  parameters : ProperParameters options mark arena method.parameters
  declared : method.synthesized = false
  oneway : (interfaceAttributes.oneway || method.attributes.oneway) = true →
    method.outParameters = []

section Extends

variable {arena after : TypeArena} (grown : arena.Extends after)

include grown

theorem ProperParameter.extend {parameter : Parameter}
    (proper : ProperParameter options mark arena parameter) :
    ProperParameter options mark after parameter where
  named := proper.named
  own := proper.own.extend grown
  usable := proper.usable.extend grown
  directed := proper.directed.extend grown proper.usable.inside

theorem ProperParameters.extend {parameters : List Parameter}
    (proper : ProperParameters options mark arena parameters) :
    ProperParameters options mark after parameters where
  each parameter listed := (proper.each parameter listed).extend grown
  distinct := proper.distinct

theorem ProperMethod.extend {interfaceAttributes : Attributes} {method : Method}
    (proper : ProperMethod options mark interfaceAttributes arena method) :
    ProperMethod options mark interfaceAttributes after method :=
  { proper with parameters := proper.parameters.extend grown }

end Extends

theorem ProperParameters.append {arena : TypeArena} {parameters : List Parameter}
    {next : Parameter} (proper : ProperParameters options mark arena parameters)
    (nextProper : ProperParameter options mark arena next)
    (new : ¬(parameters.any fun earlier => earlier.name == next.name) = true) :
    ProperParameters options mark arena (parameters ++ [next]) where
  each parameter listed := by
    rcases List.mem_append.mp listed with earlier | last
    · exact proper.each parameter earlier
    · obtain rfl := List.mem_singleton.mp last
      exact nextProper
  distinct := nodup_map_append proper.distinct new

/-- One more parameter behind parameters that were read before it. -/
theorem SeenParameters.append {state after : ParseState} {parameters : List Parameter}
    {next : Parameter} (seen : SeenParameters options mark state parameters)
    (grows : Grows options mark state after)
    (nextProper : ProperParameter options mark after.types next)
    (nextSeen : after.unit.Sees next.type)
    (new : ¬(parameters.any fun earlier => earlier.name == next.name) = true) :
    SeenParameters options mark after (parameters ++ [next]) where
  toProperParameters := (seen.toProperParameters.extend grows.types).append nextProper new
  sees parameter listed := by
    rcases List.mem_append.mp listed with earlier | last
    · exact (seen.sees parameter earlier).mono grows.table_subset
    · rw [List.mem_singleton.mp last]
      exact nextSeen

namespace Reading

theorem direction : Reading options mark known before direction fun _ after =>
    after.tokens.length < before.tokens.length := by
  apply bind (expect rfl)
  intro _ opened _ _
  apply bindNext
  intro token state _
  cases token.kind
  case inWord | outWord =>
    apply Ensures.bindOk rfl
    apply bind (expect rfl)
    intro _ closed _ _
    apply pure
    rintro ⟨⟨-, -, shorter⟩, -, closes⟩ -
    exact ⟨rfl, fun takes => Nat.lt_trans closes (Nat.lt_trans takes shorter)⟩
  all_goals exact Ensures.bindFail

theorem checkInterfaceDirection (type : TypeId) (way : Direction) (place : Position) :
    Reading options mark known before (checkInterfaceDirection type way place) fun _ after =>
      ∀ target, after.types.interface? type = some target →
        way = if target.isCallback then .inward else .outward := by
  apply Ensures.bindOk (types_run before)
  split
  · rename_i absent
    exact pure fun _ _ target found => by simp [absent] at found
  · rename_i target found
    cases isCallback : target.isCallback <;> cases way
    case false.inward | true.outward =>
      exact (Ensures.report place _).imp fun _ _ _ _ impossible => impossible.elim
    all_goals
      apply pure
      rintro - - other foundToo
      obtain rfl : target = other := by simpa [found] using foundToo
      rw [isCallback]
      rfl

theorem parameter : Reading options mark known before (parameter options) fun found after =>
    (ProperParameter options mark after.types found ∧ after.unit.Sees found.type) ∧
      after.tokens.length < before.tokens.length := by
  apply bind direction
  intro way directed _ _
  apply bind typeExpression
  intro type read _ _
  apply bind expectWord
  intro name named _ _
  apply bind (checkInterfaceDirection type way name.place)
  intro _ checked _ _
  apply pure
  rintro ⟨⟨⟨⟨-, -, shorter⟩, reads, expresses⟩, names, isWord, -⟩, checks, isDirected⟩ -
  have behind := names.trans checks
  exact ⟨⟨⟨isWord, expresses.encloses.own.extend behind.types,
    expresses.usable.extend behind.types, isDirected⟩,
    expresses.encloses.sees.mono behind.table_subset⟩,
    Nat.lt_of_le_of_lt (reads.trans behind).length_le shorter⟩

/-- What separates parameters or ends them. -/
theorem parameterEnd (options : Options) {found : List Parameter}
    (seen : known → SeenParameters options mark before found) :
    Reading options mark known before
      (do
        let token ← next
        match token.kind with
        | .comma => return .inl found
        | .parenClose => return .inr found
        | _ => unexpected token "\",\" or \")\"")
      (Ensures.Round (fun parameters state => SeenParameters options mark state parameters)
        (fun parameters state => SeenParameters options mark state parameters) before) := by
  apply bindNext
  intro token state run
  obtain ⟨-, rfl⟩ : ahead before = token ∧ { before with tokens := before.tokens.tail } = state := by
    simpa [next_run] using run
  cases token.kind
  case comma => exact pure fun assumed _ => ⟨rfl, fun takes => ⟨{ seen assumed with }, takes⟩⟩
  case parenClose => exact pure fun assumed _ => ⟨rfl, fun _ => { seen assumed with }⟩
  all_goals exact Ensures.unexpected

theorem parameters : Reading options mark known before (parameters options) fun found after =>
    SeenParameters options mark after found := by
  apply bind (eat rfl)
  intro closed opened _ _
  apply Ensures.ite
  · intro _
    exact pure fun _ _ => ⟨⟨by simp, by simp⟩, by simp⟩
  · intro _
    apply loop fun found state => SeenParameters options mark state found
    · exact fun _ _ => ⟨⟨by simp, by simp⟩, by simp⟩
    · exact fun _ _ seen => { seen with }
    · intro found state _
      apply bind parameter
      intro next read _ _
      apply Ensures.ite
      · intro _
        apply Ensures.bindReport
        intro reported
        apply Ensures.bindOk rfl
        exact (parameterEnd options False.elim).imp fun _ _ impossible => impossible.elim
      · intro isNew
        apply Ensures.bindOk rfl
        apply (parameterEnd options _).imp
        · rintro result after ⟨-, -, -, shorter⟩ - ⟨reads, round⟩
          refine ⟨reads, ?_⟩
          cases result with
          | inl more => exact ⟨round.1, Nat.lt_trans round.2 shorter⟩
          | inr all => exact round
        · rintro ⟨⟨-, -, seen⟩, reads, ⟨nextProper, nextSeen⟩, -⟩
          exact seen.append reads.toGrows nextProper nextSeen isNew

theorem method (interfaceAttributes : Attributes) :
    Reading options mark known before (method options interfaceAttributes) fun found after =>
      (ProperMethod options mark interfaceAttributes after.types found ∧
          ∀ parameter ∈ found.parameters, after.unit.Sees parameter.type) ∧
        after.tokens.length < before.tokens.length := by
  apply bind optionalAttributes
  rintro ⟨found, place⟩ attributed _ _
  apply reportIf
  intro accepted _
  apply bind expectWord
  intro name named _ _
  apply bind (expect rfl)
  intro _ opened _ _
  apply bind parameters
  intro all read _ _
  apply bind (expect rfl)
  intro _ closed _ _
  apply Ensures.under ((Text.IsWord name.text ∧ ProperParameters options mark closed.types all ∧
    ∀ parameter ∈ all, closed.unit.Sees parameter.type) ∧
    closed.tokens.length < before.tokens.length)
  · apply Ensures.ite
    · intro isOneway
      simp only
      split
      · exact Ensures.bindReport fun _ => Ensures.never
      · rename_i noResult
        apply pure
        rintro ⟨⟨isWord, proper, sees⟩, shorter⟩ -
        refine ⟨⟨⟨isWord, proper, rfl, fun _ => ?_⟩, sees⟩, shorter⟩
        rw [Method.outParameters, List.filter_eq_nil_iff]
        exact List.find?_eq_none.mp (Option.eq_none_iff_forall_ne_some.mpr noResult)
    · intro notOneway
      apply pure
      rintro ⟨⟨isWord, proper, sees⟩, shorter⟩ -
      exact ⟨⟨⟨isWord, proper, rfl, fun isOneway => absurd isOneway notOneway⟩, sees⟩, shorter⟩
  · rintro ⟨⟨⟨⟨⟨⟨-, attributes, -⟩, rfl, -⟩, -, isWord, shorter⟩, opens, -⟩, reads, seen⟩, closes, -⟩
    refine ⟨⟨isWord, seen.toProperParameters.extend closes.types, fun parameter listed => ?_⟩, ?_⟩
    · exact (seen.sees parameter listed).mono closes.table_subset
    have behind := ((opens.trans reads).trans closes).length_le
    exact Nat.lt_of_le_of_lt behind (Nat.lt_of_lt_of_le shorter attributes.length_le)

theorem methods (interfaceAttributes : Attributes) :
    Reading options mark known before (methods options interfaceAttributes) fun found after =>
      ∀ method ∈ found, ProperMethod options mark interfaceAttributes after.types method ∧
        ∀ parameter ∈ method.parameters, after.unit.Sees parameter.type := by
  apply bodyItems fun arena unit found =>
    ∀ method ∈ found, ProperMethod options mark interfaceAttributes arena method ∧
      ∀ parameter ∈ method.parameters, unit.Sees parameter.type
  · simp
  · intro found state
    apply (method interfaceAttributes).imp
    rintro next after ⟨-, proper⟩ - ⟨reads, nextProper, shorter⟩
    refine ⟨reads, ?_, shorter⟩
    intro other listed
    rcases List.mem_append.mp listed with earlier | last
    · obtain ⟨otherProper, sees⟩ := proper other earlier
      exact ⟨otherProper.extend reads.types, fun parameter inside =>
        (sees parameter inside).mono reads.table_subset⟩
    · rw [List.mem_singleton.mp last]
      exact nextProper

end Reading

/-- An interface is what tokens spell: behind its word, its name and a brace, a run without an error
reads its methods, and the version method follows them. -/
structure Written (options : Options) (tokens : List Token) (declared : InterfaceType)
    (opened : ParseState) (methods : List Method) (read : ParseState) : Prop where
  head : ∃ early word brace,
    tokens = early ++
      word :: ⟨.identifier, declared.name, declared.place⟩ :: brace :: opened.tokens ∧
    word.kind = .interface ∧ brace.kind = .braceOpen
  sound : opened.Sound
  run : Parse.methods options declared.attributes opened = .ok methods read
  clean : read.errors = 0
  methods_eq : declared.methods = methods ++ [Method.version declared.place]

/-- An interface that tokens spell declares a method, and its types are still there. -/
def FromText (options : Options) (tokens : List Token) (arena : TypeArena)
    (declared : InterfaceType) : Prop :=
  ∃ opened methods read, Written options tokens declared opened methods read ∧ methods ≠ [] ∧
    read.types.Extends arena

theorem FromText.mono {tokens more : List Token} {arena grown : TypeArena}
    {declared : InterfaceType} (fromText : FromText options tokens arena declared)
    (suffix : tokens <:+ more) (growth : arena.Extends grown) :
    FromText options more grown declared := by
  obtain ⟨opened, methods, read, written, notEmpty, types⟩ := fromText
  obtain ⟨early, word, brace, split, isWord, isBrace⟩ := written.head
  obtain ⟨first, rfl⟩ := suffix
  refine ⟨opened, methods, read, { written with head := ?_ }, notEmpty, types.trans growth⟩
  exact ⟨first ++ early, word, brace, by rw [split, List.append_assoc], isWord, isBrace⟩

/-- The interface of the unit is declared.  The type it is known by is an interface if no other type
was visible by the name. -/
structure DeclaresInterface (options : Options) (mark : Nat) (before : ParseState) (id : TypeId)
    (after : ParseState) : Prop extends
    Declares options mark .interface before.unit.name before id after where
  absent : before.unit.interface = none
  unit : after.unit = { before.unit with table := after.unit.table, interface := some id }
  records : ∀ other, after.types.record? other = before.types.record? other
  interfaces : ∀ other declared, after.types.unmarked? other = some declared →
    before.types.unmarked? other = some declared ∨
      FromText options before.tokens after.types declared
  only : before.types.AddsDeclared after.types (· = id)
  node : before.unit.visibleType? (.named before.unit.namespaceId before.unit.name) = none →
    before.types.size ≤ id ∧
      (after.types.node id).declaration? = some (.interface, before.unit.name)

/-- The parts of an interface are the types of its parameters. -/
theorem usable_parameters {arena : TypeArena} (sound : arena.Sound) {declared : InterfaceType}
    {methods : List Method} {place : Position}
    (proper : ∀ method ∈ methods, ProperMethod options mark declared.attributes arena method)
    (isMethods : declared.methods = methods ++ [Method.version place]) :
    ∀ part ∈ (TypeNode.interface declared).parts,
      arena.OwnFrom mark part ∧ Usable options arena part := by
  intro part listed
  simp only [TypeNode.parts, isMethods, List.mem_flatMap, List.mem_append, List.mem_singleton,
    List.mem_map] at listed
  obtain ⟨method, isMethod | rfl, parameter, isParameter, rfl⟩ := listed
  · have ofParameter := (proper method isMethod).parameters.each parameter isParameter
    exact ⟨ofParameter.own, ofParameter.usable⟩
  · have isUint : parameter.type = Primitive.uint.id := by
      simp only [Method.version, List.mem_cons, List.not_mem_nil, or_false] at isParameter
      rcases isParameter with rfl | rfl <;> rfl
    rw [isUint]
    refine ⟨.of_elements (sound.primitive_lt _) (by decide) ?_, .primitive sound (by decide)⟩
    rw [sound.node_primitive]
    rfl

/-- A unit sees what an interface refers to if it sees the types of its parameters. -/
theorem sees_parameters {unit : CompiledUnit} {declared : InterfaceType} {methods : List Method}
    {place : Position}
    (sees : ∀ method ∈ methods, ∀ parameter ∈ method.parameters, unit.Sees parameter.type)
    (isMethods : declared.methods = methods ++ [Method.version place]) :
    ∀ part ∈ (TypeNode.interface declared).parts, unit.Sees part := by
  intro part listed
  simp only [TypeNode.parts, isMethods, List.mem_flatMap, List.mem_append, List.mem_singleton,
    List.mem_map] at listed
  obtain ⟨method, isMethod | rfl, parameter, isParameter, rfl⟩ := listed
  · exact sees method isMethod parameter isParameter
  · simp only [Method.version, List.mem_cons, List.not_mem_nil, or_false] at isParameter
    rcases isParameter with rfl | rfl <;> exact .inl ⟨.uint, rfl⟩

/-- The names of a method without a fault. -/
theorem ProperMethod.words {arena : TypeArena} {attributes : Attributes} {method : Method}
    (proper : ProperMethod options mark attributes arena method) :
    ∀ name ∈ method.name :: method.parameters.map Parameter.name, Text.IsWord name := by
  intro name listed
  rcases List.mem_cons.mp listed with rfl | isParameter
  · exact proper.named
  · obtain ⟨parameter, inside, rfl⟩ := List.mem_map.mp isParameter
    exact (proper.parameters.each parameter inside).named

theorem isWord_of_mem_version {place : Position} {name : String}
    (listed : name ∈ (Method.version place).name ::
      (Method.version place).parameters.map Parameter.name) : Text.IsWord name := by
  have word : ∀ {known : String}, known.toList ≠ [] → known.toList.all isWordChar = true →
      Text.IsWord known := fun nonempty all => ⟨nonempty, List.all_eq_true.mp all⟩
  simp only [Method.version, List.map_cons, List.map_nil, List.mem_cons, List.not_mem_nil,
    or_false] at listed
  rcases listed with rfl | rfl | rfl
  · exact word (by decide) (by decide)
  · exact word (by decide) (by decide)
  · exact word (by decide) (by decide)

/-- An interface whose body has been read without a fault. -/
theorem addable_interface {arena : TypeArena} (sound : arena.Sound) {declared : InterfaceType}
    {methods : List Method} {place : Position} (isWord : Text.IsWord declared.name)
    (proper : ∀ method ∈ methods, ProperMethod options mark declared.attributes arena method)
    (isMethods : declared.methods = methods ++ [Method.version place]) :
    arena.Addable options mark (.interface declared) where
  made := by simp
  own part listed := (usable_parameters sound proper isMethods part listed).1
  integral := by simp
  usable part listed := (usable_parameters sound proper isMethods part listed).2
  elements := by simp [TypeNode.elements]
  plain := by simp
  unfilled := by simp [TypeNode.record?]
  words name listed := by
    rcases List.mem_cons.mp listed with rfl | ofMethod
    · exact isWord
    · obtain ⟨method, isMethod, inside⟩ := List.mem_flatMap.mp ofMethod
      rw [isMethods] at isMethod
      rcases List.mem_append.mp isMethod with isDeclared | isVersion
      · exact (proper method isDeclared).words name inside
      · rw [List.mem_singleton.mp isVersion] at inside
        exact isWord_of_mem_version inside

/-- A state behind the methods of an interface. -/
structure Bodied (options : Options) (mark : Nat) (found : Attributes) (name : String)
    (before read : ParseState) (methods : List Method) (state : ParseState) : Prop where
  underway : Underway options mark .interface name before state
  proper : ∀ method ∈ methods, ProperMethod options mark found state.types method
  sees : ∀ method ∈ methods, ∀ parameter ∈ method.parameters, state.unit.Sees parameter.type
  types : read.types.Extends state.types

theorem Bodied.read {found : Attributes} {name : String} {methods : List Method}
    {read state after : ParseState}
    (bodied : Bodied options mark found name before read methods state)
    (reads : Reads options mark state after) :
    Bodied options mark found name before read methods after where
  underway := bodied.underway.read reads
  proper method listed := (bodied.proper method listed).extend reads.types
  sees method listed parameter inside :=
    (bodied.sees method listed parameter inside).mono reads.table_subset
  types := bodied.types.trans reads.types

/-- The interface that a clean body gives is the one of the unit. -/
theorem DeclaresInterface.of_declares {id : TypeId} {state : ParseState}
    (absent : before.unit.interface = none)
    (unit : state.unit = { before.unit with table := state.unit.table })
    (declares : Declares options mark .interface before.unit.name before id state)
    (records : ∀ other, state.types.record? other = before.types.record? other)
    (interfaces : ∀ other declared, state.types.unmarked? other = some declared →
      before.types.unmarked? other = some declared ∨
        FromText options before.tokens state.types declared)
    (only : before.types.AddsDeclared state.types (· = id))
    (node : before.unit.visibleType? (.named before.unit.namespaceId before.unit.name) = none →
      before.types.size ≤ id ∧
        (state.types.node id).declaration? = some (.interface, before.unit.name)) :
    DeclaresInterface options mark before id
      { state with unit := { state.unit with interface := some id } } where
  toDeclares := declares.of_unit (by rfl)
  absent := absent
  unit := by
    simp only
    rw [unit]
  records := records
  interfaces := interfaces
  only := only
  node := node

/-- The name of an interface is not checked, so it may stand for a type that was visible before. -/
theorem DeclaresInterface.of_interned {id : TypeId} {state interned : ParseState} {node : TypeNode}
    (absent : before.unit.interface = none)
    (underway : Underway options mark .interface before.unit.name before state) (sound : state.Sound)
    (declared : node.declaration? = some (.interface, before.unit.name))
    (addable : state.types.Addable options mark node)
    (sees : ∀ part ∈ node.parts, state.unit.Sees part)
    (fromText : ∀ declared, node.unmarked? = some declared →
      FromText options before.tokens state.types declared)
    (outcome :
      state.unit.visibleType? (.named state.unit.namespaceId before.unit.name) = some id ∧
          interned = state ∨
        state.unit.visibleType? (.named state.unit.namespaceId before.unit.name) = none ∧
          id = state.types.size ∧
          interned = state.withType (.named state.unit.namespaceId before.unit.name) node) :
    DeclaresInterface options mark before id
      { interned with unit := { interned.unit with interface := some id } } := by
  rcases outcome with ⟨visible, rfl⟩ | ⟨hidden, rfl, rfl⟩
  · have inside := (sound.table _ (CompiledUnit.mem_table_of_visibleType? visible)).1
    apply of_declares absent underway.unit (.of_visible underway visible inside) underway.records
    · intro other declared found
      exact .inl (by rw [← underway.interfaces other, found])
    · exact underway.undeclared.mono fun _ => False.elim
    · intro hidden
      rw [underway.visibleType?_named, underway.namespaceId_eq, hidden] at visible
      cases visible
  · have notRecord : node.record? = none := by
      cases node <;> simp_all [TypeNode.declaration?, TypeNode.record?]
    apply of_declares absent _ (.of_withType underway hidden addable sees)
    · intro other
      exact (TypeArena.record?_alloc notRecord).trans (underway.records other)
    · intro other declared found
      by_cases isNew : other = state.types.size
      · rw [isNew, types_withType, TypeArena.unmarked?, TypeArena.node_alloc_size] at found
        exact .inr ((fromText declared found).mono (List.suffix_refl _) (.alloc _ node))
      · rw [types_withType, TypeArena.unmarked?_alloc_of_ne isNew, underway.interfaces] at found
        exact .inl found
    · exact underway.undeclared.trans (.alloc _ node) (fun _ => False.elim) fun _ => And.left
    · intro _
      rw [types_withType, TypeArena.node_alloc_size]
      exact ⟨underway.types.size_le, declared⟩
    · simp only [ParseState.withType]
      rw [underway.unit]

theorem Ensures.interfaceDeclaration (found : Attributes) :
    Ensures mark known before (interfaceDeclaration options found) fun _ after =>
      ∃ id, DeclaresInterface options mark before id after := by
  apply bind (expect (by decide))
  intro word worded _ _
  apply bind expectWord
  intro name named _ _
  apply bindOk (get_run named)
  apply reportIf
  intro first _
  apply reportIf
  intro own _
  apply reportIf
  intro expressed _
  apply under (((((named.unit = before.unit ∧ Text.IsWord name.text) ∧
      before.unit.interface = none) ∧ name.text = before.unit.name) ∧
      (before.tokens = word :: ⟨.identifier, name.text, name.place⟩ :: expressed.tokens ∧
        word.kind = .interface)) ∧
    Underway options mark .interface before.unit.name before expressed)
  · apply readPast Underway.read (Reading.expect rfl)
    intro brace opened braceRun _
    obtain ⟨takesBrace, isBrace⟩ := expect_ok (by decide) braceRun
    apply readOn Underway.read (Reading.methods found).lookBack
    intro methods read run _
    -- The node that is interned once the body has been read.
    let declared : InterfaceType := ⟨name.text, named.unit.namespaceId, named.unit.name, found,
      methods ++ [Method.version name.place], false, name.place⟩
    apply under (((((named.unit = before.unit ∧ Text.IsWord name.text) ∧
        before.unit.interface = none) ∧ name.text = before.unit.name) ∧
        Written options before.tokens declared opened methods read) ∧
      Bodied options mark found before.unit.name before read methods read)
    · apply readPast Bodied.read (Reading.eat rfl)
      intro _ ended _ _
      apply reportIf
      intro state _
      apply ite
      · intro _
        apply bind
        · apply fromSound (internNamed _ _ _)
          · rintro -
            exact ⟨rfl, rfl⟩
          · rintro ⟨⟨-, bodied⟩, rfl, -⟩ sound part listed
            exact (usable_parameters sound.types bodied.proper rfl part listed).1.inside
          · simp
        · intro id interned _ _
          apply (modify (fun _ => .of_unit interned (by rfl) (by rfl) (by rfl)) fun _ sound =>
            .of_unit sound (by exact sound.table) (by rfl) (by rfl)).imp
          rintro _ after ⟨⟨⟨⟨⟨⟨⟨unit, isWord⟩, absent⟩, isOwn⟩, written⟩, bodied⟩, rfl, notEmpty⟩,
            soundHere, outcome⟩ - rfl
          have fromText : FromText options before.tokens state.types declared :=
            ⟨opened, methods, read, written, by simpa using notEmpty, bodied.types⟩
          simp only [declared] at fromText
          rw [unit, isOwn, ← bodied.underway.namespaceId_eq] at outcome fromText
          refine ⟨id, .of_interned absent bodied.underway soundHere ?_ ?_ ?_ ?_ outcome⟩
          · rfl
          · exact addable_interface soundHere.types (isOwn ▸ isWord) bodied.proper rfl
          · exact sees_parameters bodied.sees rfl
          · rintro _ ⟨⟩
            exact fromText
      · intro refused
        apply pure
        rintro ⟨⟨⟨⟨⟨⟨unit, -⟩, absent⟩, -⟩, -⟩, -⟩, -⟩ -
        simp [unit, absent] at refused
    · rintro ⟨⟨⟨assumed, split, isWord⟩, ⟨sound, clean⟩, proper⟩, underway⟩
      refine ⟨⟨assumed, ?_⟩, underway, fun method listed => (proper method listed).1,
        fun method listed => (proper method listed).2, .refl _⟩
      exact
        { head := ⟨[], word, brace, by rw [split, takesBrace.tokens]; rfl, isWord, isBrace⟩
          sound := sound
          run := run
          clean := clean
          methods_eq := rfl }
  · rintro ⟨⟨⟨⟨⟨-, takesWord, isKeyword⟩, takesName, isName, isWord⟩, rfl, accepted⟩, rfl, isOwn⟩,
      rfl, -⟩
    have underway : Underway options mark word.kind name.text before expressed :=
      .of_takes takesWord takesName (by simp [isKeyword]) isName
    have unit : expressed.unit = before.unit := by rw [takesName.same, takesWord.same]
    have named : name.text = before.unit.name := by simpa [unit] using isOwn
    have isToken : name = ⟨.identifier, name.text, name.place⟩ := by rw [← isName]
    refine ⟨⟨⟨⟨⟨unit, isWord⟩, by simpa [unit] using accepted⟩, named⟩, ?_, isKeyword⟩, ?_⟩
    · rw [takesWord.tokens, takesName.tokens, ← isToken]
    · rwa [isKeyword, named] at underway

end Parse

end DriverIdl
