import DriverIdl.Proofs.Program.WellFormed

/-!
# Programs that parsing builds

A program is reachable if it comes from parsing source texts one after another, some of which may
have been refused.  Every reachable program is well-formed: a refused text only marks interfaces, and
an accepted one adds units to what is there.
-/

namespace DriverIdl

open Parse

namespace ParseState

variable {program : Program} (diagnostics : List Diagnostic) (path : Path) (source : String)

theorem wellSpelled_start :
    ∀ token ∈ (start program diagnostics path source).tokens, token.WellSpelled :=
  fun token listed => TokenStream.wellSpelled_ofSource source token (List.mem_filter.mp listed).1

theorem sound_start (wellFormed : program.WellFormed) :
    (start program diagnostics path source).Sound where
  spelled := wellSpelled_start diagnostics path source
  types := wellFormed.types
  table := .initial wellFormed.types
  units unit listed := (wellFormed.units unit listed).table
  namespaces := wellFormed.namespaces
  package_inside := wellFormed.namespaces.root_inside
  package_name := by
    simp only [NamespaceTree.fullName, start, NamespaceTree.segments_root wellFormed.namespaces]
    rfl

theorem since_start {mark : Nat} (inside : mark ≤ program.types.size) :
    (start program diagnostics path source).Since mark where
  inside := inside
  containers entry listed composite := by
    obtain ⟨primitive, -, rfl⟩ := List.mem_map.mp listed
    cases composite
  spelled := wellSpelled_start diagnostics path source

theorem fresh_start : Fresh (start program diagnostics path source) where
  table entry listed := by
    obtain ⟨primitive, -, rfl⟩ := List.mem_map.mp listed
    rfl
  definitions := rfl
  interface := rfl
  imports := rfl
  sequenceables := rfl

end ParseState

namespace Program

variable {program : Program} {options : Options} {diagnostics : List Diagnostic} {path : Path}
  {source : String} {start read : ParseState} {outcome : ParseOutcome}

/-- What comes of a text that is refused once it has been read. -/
structure Rejects (start read : ParseState) (outcome : ParseOutcome) : Prop where
  accepted : outcome.accepted = false
  program : outcome.program =
    { read.program with types := read.types.truncate start.types.size }
  diagnostics : ∃ found, outcome.diagnostics = start.diagnostics ++ found ∧ found ≠ []

/-- What comes of a text that is accepted. -/
structure Accepts (options : Options) (start read : ParseState) (outcome : ParseOutcome) :
    Prop where
  accepted : outcome.accepted = true
  sound : read.Sound
  built : Built options start.types.size start read
  finished : read.tokens = []
  oneThing : DeclaresOneThing read.unit
  contained : Containment.verify read.types read.unit = []
  listed : ∀ id, ∀ type ∈ (outcome.program.namespaces.node id).listed,
    type ∈ (read.program.namespaces.node id).listed ∨ read.unit.interface = some type ∨
      ∃ entry ∈ read.sequenceables, type ∈ entry.2.definitions
  published : ∃ state namespaces, Published (settled read) read.sequenceables state ∧
    state.program.namespaces.Extends namespaces ∧
    outcome.program = ({ state.program with namespaces := namespaces }.add state.unit).2
  diagnostics : outcome.diagnostics = start.diagnostics

/-- Diagnostics and errors are counted alike. -/
theorem eq_or_grown_of_advances {mark : Nat} {start read : ParseState}
    (advanced : start.Advances mark read) (clean : start.errors = 0) :
    ∃ found, read.diagnostics = start.diagnostics ++ found ∧ (read.errors = 0 ↔ found = []) := by
  obtain ⟨found, grown, count⟩ := advanced.faults
  refine ⟨found, grown, ?_⟩
  rw [count, clean, Nat.zero_add, List.length_eq_zero_iff]

/-- What finishing a unit gives is what parsing its text gives. -/
theorem parseSource_of_finished {result : Option Unit} {read state : ParseState} {accepted : Bool}
    (run : attempt (file options) (ParseState.start program diagnostics path source) = .ok result read)
    (finished : finishUnit read = .ok accepted state) :
    program.parseSource options diagnostics path source = ⟨accepted,
      if accepted then state.program
      else { state.program with types := state.types.truncate program.types.size },
      state.diagnostics⟩ := by
  simp only [parseSource, Bind.bind, EStateM.bind, run, finished, ParseState.types]

/-- A text that has been read is refused or accepted. -/
theorem parseSource_cases_of_read (wellFormed : program.WellFormed) {result : Option Unit}
    (run : attempt (file options) (ParseState.start program diagnostics path source) =
      .ok result read) :
    ParseState.Advances program.types.size
        (ParseState.start program diagnostics path source) read ∧
      (Rejects (ParseState.start program diagnostics path source) read
          (program.parseSource options diagnostics path source) ∨
        Accepts options (ParseState.start program diagnostics path source) read
          (program.parseSource options diagnostics path source)) := by
  have sound := ParseState.sound_start diagnostics path source wellFormed
  have reads : Ensures program.types.size True (ParseState.start program diagnostics path source)
      (attempt (file options)) _ := .attempt (.file (ParseState.fresh_start diagnostics path source))
  obtain ⟨advanced, ensured⟩ := reads.ok run (ParseState.since_start diagnostics path source (Nat.le_refl _))
  obtain ⟨found, grown, count⟩ := eq_or_grown_of_advances advanced rfl
  refine ⟨advanced, ?_⟩
  rcases finishUnit_cases read with ⟨after, finished, refuses⟩
    | ⟨clean, oneThing, contained, finished⟩
  · rw [parseSource_of_finished run finished]
    obtain ⟨more, grownMore, wrong, -⟩ := refuses.diagnostics
    refine .inl ⟨rfl, ?_, found ++ more, ?_, ?_⟩
    · simp only [ParseState.types, refuses.program]
      rfl
    · exact grownMore.trans (by rw [grown, List.append_assoc])
    · intro nothing
      obtain ⟨noneFound, noneMore⟩ := List.append_eq_nil_iff.mp nothing
      exact wrong (count.mpr noneFound) noneMore
  · obtain ⟨soundRead, -, -, built, atEnd⟩ := ensured clean trivial sound
    have named : ∀ entry ∈ read.sequenceables, entry.2.fullName = entry.1 := by
      intro entry listed
      obtain ⟨-, package, name, namespaceId, type, rfl, -⟩ := built.sequenceables entry listed
      rfl
    obtain ⟨state, namespaces, published, extended, lists, publishRun⟩ :=
      @publish_run (settled read) built.imports named
    rw [EStateM.bind, publishRun] at finished
    rw [parseSource_of_finished run finished]
    refine .inr ⟨rfl, soundRead, built, atEnd, oneThing, contained, ?_,
      ⟨state, namespaces, published, extended, rfl⟩, ?_⟩
    · obtain ⟨same, -⟩ :=
        ({ state.program with namespaces := namespaces } : Program).add_spec state.unit
      have interface : state.unit.interface = read.unit.interface := by rw [published.unit]; rfl
      intro id type isListed
      rw [same] at isListed
      rcases lists id type isListed with earlier | isInterface
      · exact (published.listed id type earlier).imp_right .inr
      · exact .inr (.inl (interface ▸ isInterface))
    · rw [count.mp clean, List.append_nil] at grown
      exact published.diagnostics.trans grown

/-- A text is read up to its end; then it is refused or accepted. -/
theorem parseSource_cases (wellFormed : program.WellFormed) (options : Options)
    (diagnostics : List Diagnostic) (path : Path) (source : String) :
    ∃ read, ParseState.Advances program.types.size
        (ParseState.start program diagnostics path source) read ∧
      (Rejects (ParseState.start program diagnostics path source) read
          (program.parseSource options diagnostics path source) ∨
        Accepts options (ParseState.start program diagnostics path source) read
          (program.parseSource options diagnostics path source)) := by
  cases run : attempt (file options) (ParseState.start program diagnostics path source) with
  | error fault after =>
      simp only [attempt] at run
      split at run <;> cases run
  | ok result read => exact ⟨read, parseSource_cases_of_read wellFormed run⟩

theorem accepts_of_accepted (wellFormed : program.WellFormed)
    (accepted : (program.parseSource options diagnostics path source).accepted = true) :
    ∃ read, ParseState.Advances program.types.size
        (ParseState.start program diagnostics path source) read ∧
      Accepts options (ParseState.start program diagnostics path source) read
        (program.parseSource options diagnostics path source) := by
  obtain ⟨read, advanced, rejects | accepts⟩ :=
    parseSource_cases wellFormed options diagnostics path source
  · rw [rejects.accepted] at accepted
    cases accepted
  · exact ⟨read, advanced, accepts⟩

section Rejected

/-- A refused text leaves the types as they were, but for the mark of interfaces it imports. -/
theorem Rejects.types (rejects : Rejects start read outcome)
    (advanced : start.Advances start.types.size read) (sound : start.types.Sound) :
    outcome.program.types.size = start.types.size ∧
      ∀ id < start.types.size, outcome.program.types.node id = start.types.node id ∨
        start.ImportsInterface id ∧
          outcome.program.types.node id = markSerializable (start.types.node id) := by
  have inside := advanced.inside (Nat.le_refl _)
  rw [rejects.program]
  refine ⟨TypeArena.size_truncate sound.primitives_le inside, fun id below => ?_⟩
  simp only
  rw [TypeArena.node_truncate sound.primitives_le inside below]
  exact advanced.nodes id below

theorem types_extends_of_marks {before after : TypeArena} (size : after.size = before.size)
    (nodes : ∀ id < before.size, after.node id = before.node id ∨
      after.node id = markSerializable (before.node id)) : before.Extends after where
  size_le := Nat.le_of_eq size.symm
  outline_eq id inside := by
    rcases nodes id inside with same | marked
    · rw [same]
    · rw [marked, markSerializable_outline]

theorem types_sound_of_marks {before after : TypeArena} (sound : before.Sound)
    (size : after.size = before.size)
    (nodes : ∀ id < before.size, after.node id = before.node id ∨
      after.node id = markSerializable (before.node id)) : after.Sound where
  primitives primitive := by
    have inside := sound.primitive_lt primitive
    rw [TypeArena.getElem?_of_lt_size (by rwa [size])]
    rcases nodes primitive.id inside with same | marked
    · rw [same, sound.node_primitive]
    · rw [marked, sound.node_primitive]
      rfl
  parts_lt id part listed := by
    rw [size]
    rcases Nat.lt_or_ge id before.size with inside | outside
    · apply sound.parts_lt id part
      rcases nodes id inside with same | marked
      · rwa [same] at listed
      · rwa [marked, markSerializable_parts] at listed
    · rw [TypeArena.node_of_size_le (by omega)] at listed
      simp [TypeNode.parts] at listed
  enum_integral id declared isEnum := by
    rcases Nat.lt_or_ge id before.size with inside | outside
    · apply sound.enum_integral id
      rcases nodes id inside with same | marked
      · rw [← same, isEnum]
      · rw [isEnum] at marked
        cases found : before.node id <;> simp_all [markSerializable]
    · rw [TypeArena.node_of_size_le (by omega)] at isEnum
      simp at isEnum

theorem Rejects.wellFormed (rejects : Rejects start read outcome)
    (advanced : start.Advances start.types.size read) (wellFormed : start.program.WellFormed) :
    outcome.program.WellFormed := by
  obtain ⟨size, nodes⟩ := rejects.types advanced wellFormed.types
  have marks := fun id below => (nodes id below).imp_right And.right
  have namespaces := advanced.namespaces wellFormed.namespaces
  have grown : start.program.Extends outcome.program :=
    { types := types_extends_of_marks size marks
      namespaces := by rw [rejects.program]; exact namespaces
      units := ⟨#[], by rw [rejects.program, advanced.units]; simp⟩ }
  refine ⟨types_sound_of_marks wellFormed.types size marks,
    grown.namespaces.wellFormed wellFormed.namespaces, ?_⟩
  intro unit listed
  rw [rejects.program, advanced.units] at listed
  exact (wellFormed.units unit listed).extend grown wellFormed.namespaces

end Rejected

section Accepted

variable {state : ParseState} {namespaces : NamespaceTree}

/-- Names that the file knows are names of units once its sequenceables are published. -/
theorem find?_of_knows {full : String}
    (published : Published (settled read) read.sequenceables state)
    (knows : Knows read full) : ∃ id, state.program.find? full = some id := by
  rcases knows with ⟨id, found⟩ | ⟨unit, listed⟩
  · obtain ⟨added, units, -⟩ := published.units
    exact ⟨id, find?_of_units units found⟩
  · exact published.found _ listed

/-- Two units whose interfaces or sequenceables have one key have one name. -/
theorem fullName_eq_of_denotes {node : TypeNode} {first second : CompiledUnit}
    (ofFirst : first.ownKey.Denotes node) (ofSecond : second.ownKey.Denotes node)
    (firstPackage : program.namespaces.fullName first.namespaceId = first.package)
    (secondPackage : program.namespaces.fullName second.namespaceId = second.package) :
    first.fullName = second.fullName := by
  obtain ⟨firstNamespace, firstName⟩ := ofFirst
  obtain ⟨secondNamespace, secondName⟩ := ofSecond
  rw [firstNamespace, Option.some.injEq] at secondNamespace
  rw [firstName, Option.some.injEq] at secondName
  rw [CompiledUnit.fullName, CompiledUnit.fullName, ← firstPackage, ← secondPackage, secondNamespace,
    secondName]

/-- A type of the unit's own key that comes from elsewhere is one that an imported unit defines, if
no unit has the name of the unit yet. -/
theorem imported_of_origin {id : TypeId} (wellFormed : start.program.WellFormed)
    (advanced : start.Advances start.types.size read) (sound : read.Sound)
    (built : Built options start.types.size start read)
    (published : Published (settled read) read.sequenceables state)
    (absent : state.program.find? read.unit.fullName = none)
    (definitions : read.unit.definitions = [])
    (denotes : read.unit.ownKey.Denotes (read.types.node id))
    (origin : Origin read read.unit.ownKey id) :
    ∃ name unitId imported, (name, unitId) ∈ read.unit.imports ∧
      read.program.units[unitId]? = some imported ∧ imported.Sound read.program ∧
      imported.kind = .types ∧ id ∈ imported.definitions := by
  have grown : start.program.Extends read.program :=
    { types := built.types
      namespaces := advanced.namespaces wellFormed.namespaces
      units := ⟨#[], by simp [advanced.units]⟩ }
  have unknown : ∀ {name id}, read.program.find? name = some id → read.unit.fullName ≠ name := by
    rintro name id found rfl
    obtain ⟨other, foundToo⟩ := find?_of_knows published (.inl ⟨id, found⟩)
    rw [absent] at foundToo
    cases foundToo
  cases origin with
  | own listed =>
      rw [definitions] at listed
      cases listed
  | @imported _ _ name unitId listed declares =>
      have found := built.imports _ listed
      obtain ⟨imported, present, named⟩ := find?_eq_some found
      have isImported : unitAt read unitId = imported := by rw [unitAt, present, Option.getD_some]
      have importedSound : imported.Sound read.program := by
        apply (wellFormed.units imported _).extend grown wellFormed.namespaces
        rw [← advanced.units]
        exact Array.mem_of_getElem? present
      rw [isImported] at declares
      have different : imported.fullName ≠ read.unit.fullName := by
        rw [named]
        exact (unknown found).symm
      rcases importedSound.shape.own_or_defined declares with sameKey | ⟨kind, defined, -⟩
      · exact absurd (fullName_eq_of_denotes sameKey denotes importedSound.package_name
          sound.package_name) different
      · exact ⟨name, unitId, imported, listed, present, importedSound, kind, defined⟩
  | sequenceable inside knows =>
      rw [sound.package_name] at knows
      obtain ⟨other, found⟩ := find?_of_knows published knows
      rw [CompiledUnit.fullName] at absent
      rw [absent] at found
      cases found

/-- More imports do not bring a unit out of a shadow. -/
theorem shadowed_of_imports {first second : CompiledUnit} (shadowed : first.Shadowed program)
    (imports : first.imports ⊆ second.imports) (sameKey : second.ownKey = first.ownKey) :
    second.Shadowed program := by
  obtain ⟨name, id, imported, listed, present, kind, type, defined, denotes⟩ := shadowed
  exact ⟨name, id, imported, imports listed, present, kind, type, defined, sameKey ▸ denotes⟩

theorem shape_of_accepts (wellFormed : start.program.WellFormed)
    (advanced : start.Advances start.types.size read)
    (accepts : Accepts options start read outcome)
    (published : Published (settled read) read.sequenceables state)
    (absent : state.program.find? read.unit.fullName = none) : state.unit.Shape read.program := by
  have unit := published.unit
  have kind : state.unit.kind = unitKind read.types read.unit := by rw [unit]; rfl
  have interface : state.unit.interface = read.unit.interface := by rw [unit]; rfl
  have definitions : state.unit.definitions = read.unit.definitions := by rw [unit]; rfl
  have name : state.unit.name = read.unit.name := by rw [unit]; rfl
  have sameKey : state.unit.ownKey = read.unit.ownKey := by rw [unit]; rfl
  rcases accepts.oneThing with ⟨noInterface, defines⟩ | ⟨hasInterface, noDefinitions⟩
  · apply CompiledUnit.Shape.types
    · rw [kind, unitKind, noInterface]
    · rw [interface, noInterface]
    · rw [definitions]
      exact defines
    · rw [definitions]
      exact fun id listed => accepts.built.spelled.declared listed
  · obtain ⟨id, isInterface⟩ := Option.ne_none_iff_exists'.mp hasInterface
    obtain ⟨listed, declared⟩ := accepts.built.interface id isInterface
    obtain ⟨inside, denotes⟩ := accepts.sound.table _ listed
    apply CompiledUnit.Shape.interface id
    · rw [kind, unitKind, unitKind, interface]
    · rw [interface, isInterface]
    · rw [definitions, noDefinitions]
    · exact inside
    · rw [sameKey]
      exact denotes
    · rw [name]
      refine declared.imp And.right fun origin => ?_
      obtain ⟨name, unitId, imported, isImport, present, -, isTypes, defined⟩ :=
        imported_of_origin wellFormed advanced accepts.sound accepts.built published absent
          noDefinitions denotes origin
      have shadowed : read.unit.Shadowed read.program :=
        ⟨name, unitId, imported, isImport, present, isTypes, id, defined, denotes⟩
      exact shadowed_of_imports shadowed published.kept sameKey

theorem namesOwn_sequenceableUnit (path : Path) (package name : String) (namespaceId : NamespaceId)
    (type : TypeId) : (sequenceableUnit path package name namespaceId type).NamesOwn type := by
  have free : (Primitive.all.map fun primitive => (TypeKey.primitive primitive, primitive.id)).lookup
      (.named namespaceId name) = none := by
    apply List.lookup_eq_none_iff.mpr
    rintro entry listed
    obtain ⟨primitive, -, rfl⟩ := List.mem_map.mp listed
    rfl
  have added := CompiledUnit.lookup_tableWith
    (Primitive.all.map fun primitive => (TypeKey.primitive primitive, primitive.id))
    (.named namespaceId name) (.named namespaceId name) type
  rw [free, Option.none_or, List.lookup_cons_self] at added
  exact ⟨name, added⟩

/-- A sequenceable that was set aside is a sound unit. -/
theorem sound_of_setAside {entry : String × CompiledUnit} (sound : read.Sound)
    (setAside : SetAside read entry) : entry.2.Sound read.program := by
  obtain ⟨package, name, namespaceId, type, rfl, inside, isPackage, typeInside, node⟩ := setAside
  refine
    { table := ?_
      package_inside := inside
      package_name := isPackage
      imports := by simp [sequenceableUnit, CompiledUnit.register]
      definitions := by
        intro id defined
        obtain rfl := List.mem_singleton.mp defined
        exact namesOwn_sequenceableUnit _ package name namespaceId id
      shape := .sequenceable type rfl rfl rfl typeInside node }
  obtain ⟨added, table, isNew⟩ := tableWith_eq
    (Primitive.all.map fun primitive => (TypeKey.primitive primitive, primitive.id))
    (.named namespaceId name) type
  intro entry listed
  have isListed : entry ∈ CompiledUnit.tableWith
      (Primitive.all.map fun primitive => (TypeKey.primitive primitive, primitive.id))
      (.named namespaceId name) type := listed
  rw [table] at isListed
  rcases List.mem_append.mp isListed with isPrimitive | new
  · exact TableSound.initial sound.types entry isPrimitive
  · rw [isNew entry new]
    refine ⟨typeInside, ?_⟩
    rw [node]
    exact ⟨rfl, rfl⟩

/-- Publishing adds no types. -/
theorem Accepts.types_eq (accepts : Accepts options start read outcome) :
    outcome.program.types = read.types := by
  obtain ⟨state, namespaces, published, -, isProgram⟩ := accepts.published
  obtain ⟨same, -⟩ :=
    ({ state.program with namespaces := namespaces } : Program).add_spec state.unit
  rw [isProgram, same]
  exact published.types

/-- What was read stays while it is published. -/
theorem Accepts.grown (accepts : Accepts options start read outcome) :
    read.program.Extends outcome.program := by
  obtain ⟨state, namespaces, published, extended, isProgram⟩ := accepts.published
  obtain ⟨same, ⟨new, newUnits, -⟩, -⟩ :=
    ({ state.program with namespaces := namespaces } : Program).add_spec state.unit
  rw [← isProgram] at same newUnits
  obtain ⟨earlier, earlierUnits, -⟩ := published.units
  exact
    { types := by rw [accepts.types_eq]; exact .refl _
      namespaces := by rw [same]; exact published.namespaces.trans extended
      units := ⟨earlier ++ new, by rw [newUnits, earlierUnits, Array.append_assoc]; rfl⟩ }

/-- Where a unit behind an accepted text comes from: it was there before, it is a sequenceable that
the text has set aside, or it is the unit of the text itself, whose name was free. -/
theorem Accepts.mem_units (accepts : Accepts options start read outcome) {unit : CompiledUnit}
    (listed : unit ∈ outcome.program.units) :
    unit ∈ read.program.units ∨ (∃ entry ∈ read.sequenceables, entry.2 = unit) ∨
      ∃ state, Published (settled read) read.sequenceables state ∧ unit = state.unit ∧
        state.program.find? read.unit.fullName = none ∧
        ∃ added, outcome.program.units = state.program.units ++ added := by
  obtain ⟨state, namespaces, published, -, isProgram⟩ := accepts.published
  obtain ⟨-, ⟨new, newUnits, isNew⟩, -⟩ :=
    ({ state.program with namespaces := namespaces } : Program).add_spec state.unit
  rw [← isProgram] at newUnits
  obtain ⟨earlier, earlierUnits, setAside⟩ := published.units
  rw [newUnits] at listed
  rcases Array.mem_append.mp listed with before | isOwn
  · rw [earlierUnits] at before
    exact (Array.mem_append.mp before).imp_right fun isEarlier => .inl (setAside unit isEarlier)
  · obtain ⟨rfl, absent⟩ := isNew unit isOwn
    have fullName : state.unit.fullName = read.unit.fullName := by rw [published.unit]; rfl
    exact .inr (.inr ⟨state, published, rfl, fullName ▸ absent, new, newUnits⟩)

theorem Accepts.wellFormed (wellFormed : start.program.WellFormed)
    (advanced : start.Advances start.types.size read)
    (accepts : Accepts options start read outcome) :
    start.program.Extends outcome.program ∧ outcome.program.WellFormed := by
  have sound := accepts.sound
  have grown := accepts.grown
  have whole : start.program.Extends outcome.program :=
    { types := accepts.built.types.trans grown.types
      namespaces := (advanced.namespaces wellFormed.namespaces).trans grown.namespaces
      units := by
        obtain ⟨added, units⟩ := grown.units
        exact ⟨added, by rw [units, advanced.units]⟩ }
  refine ⟨whole, ?_, ?_, ?_⟩
  · rw [accepts.types_eq]
    exact sound.types
  · exact grown.namespaces.wellFormed sound.namespaces
  · intro unit listed
    rcases accepts.mem_units listed with isOld | ⟨entry, isListed, rfl⟩
      | ⟨state, published, rfl, absent, added, units⟩
    · exact (wellFormed.units unit (advanced.units ▸ isOld)).extend whole wellFormed.namespaces
    · have aside := (accepts.built.sequenceables entry isListed).2
      exact (sound_of_setAside sound aside).extend grown sound.namespaces
    · have isUnit := published.unit
      have shape : state.unit.Shape read.program :=
        shape_of_accepts wellFormed advanced accepts published absent
      exact
        { table := by
            rw [isUnit]
            exact sound.table.extend grown.types
          package_inside := by
            rw [isUnit]
            exact Nat.lt_of_lt_of_le sound.package_inside grown.namespaces.size_le
          package_name := by
            rw [isUnit]
            exact (grown.namespaces.fullName_eq sound.namespaces sound.package_inside).trans
              sound.package_name
          imports := fun entry isImport => find?_of_units units (published.imports entry isImport)
          definitions := fun id defined => by
            rw [isUnit] at defined ⊢
            exact accepts.built.denoted id defined
          shape := shape.extend grown }

end Accepted

/-- Programs that come from parsing texts one after another, accepted or not, each under options of
its own. -/
inductive Reachable : Program → Prop where
  | empty : Reachable {}
  | parse {program : Program} (options : Options) (diagnostics : List Diagnostic) (path : Path)
      (source : String) (reachable : Reachable program) :
      Reachable (program.parseSource options diagnostics path source).program

theorem WellFormed.parseSource (wellFormed : program.WellFormed) (options : Options)
    (diagnostics : List Diagnostic) (path : Path) (source : String) :
    (program.parseSource options diagnostics path source).program.WellFormed := by
  obtain ⟨read, advanced, rejects | accepts⟩ :=
    parseSource_cases wellFormed options diagnostics path source
  · exact rejects.wellFormed advanced wellFormed
  · exact (accepts.wellFormed wellFormed advanced).2

/-- Types keep their outlines, whatever comes of a text. -/
theorem WellFormed.types_extends (wellFormed : program.WellFormed) (options : Options)
    (diagnostics : List Diagnostic) (path : Path) (source : String) :
    program.types.Extends (program.parseSource options diagnostics path source).program.types := by
  obtain ⟨read, advanced, rejects | accepts⟩ :=
    parseSource_cases wellFormed options diagnostics path source
  · obtain ⟨size, nodes⟩ := rejects.types advanced wellFormed.types
    exact types_extends_of_marks size fun id below => (nodes id below).imp_right And.right
  · exact (accepts.wellFormed wellFormed advanced).1.types

theorem Reachable.wellFormed (reachable : program.Reachable) : program.WellFormed := by
  induction reachable with
  | empty => exact .initial
  | parse options diagnostics path source _ ih => exact ih.parseSource options diagnostics path source

end Program

end DriverIdl
