import DriverIdl.Proofs.Program.Invariant

/-!
# The support matrix

Not every language has every type, and the matrix of what each of them has is checked where a type
expression ends.  The types that a unit mentions are those of its members and parameters, and the
elements of containers in them, however deep they stand.  All of them are in the matrix, but for
the element of an array: the brackets stand behind it in the same expression, so the check sees the
array only.  `Language.HidesInArray` lists what gets past it that way, and nothing else does.

The unit may stand in a program with others that were read under other options.  It builds the
containers that it mentions itself, so none of them has passed a check for another language.
-/

namespace DriverIdl

open Parse Relation

section Matrix

variable {options : Options} {arena : TypeArena} {type : TypeId}

/-- What C has: no maps, queues and sequenceables, and no containers of containers; in a kernel no
file descriptors and interfaces either. -/
structure AdmittedByC (kernel : Bool) (arena : TypeArena) (type : TypeId) : Prop where
  noMap : ∀ key value, arena.node type ≠ .map key value
  noQueue : ∀ element, arena.node type ≠ .queue element
  noSequenceable : ∀ declared, arena.node type ≠ .sequenceable declared
  flat : (arena.node type).isContainer = true → ∀ element, arena.HoldsElement type element →
    (arena.node element).isContainer = false
  kernelNoDescriptor : kernel = true → arena.node type ≠ .primitive .fileDescriptor
  kernelNoInterface : kernel = true → arena.interface? type = none

/-- What Java has: no unions and queues, and no interfaces that the caller implements. -/
structure AdmittedByJava (arena : TypeArena) (type : TypeId) : Prop where
  noUnion : ∀ record, arena.node type ≠ .union record
  noQueue : ∀ element, arena.node type ≠ .queue element
  noCallback : ∀ declared, arena.interface? type = some declared → declared.isCallback = false

/-- The matrix of types that a language has. -/
def Language.Admits (kernel : Bool) (arena : TypeArena) (type : TypeId) : Language → Prop
  | .c => AdmittedByC kernel arena type
  | .cpp => True
  | .java => AdmittedByJava arena type

/-- Types that a language does not have, but has no eye for in front of the brackets of an array. -/
def Language.HidesInArray (kernel : Bool) (node : TypeNode) : Language → Prop
  | .c => (∃ element, node = .queue element) ∨ (∃ declared, node = .sequenceable declared) ∨
      kernel = true ∧ node = .primitive .fileDescriptor
  | .cpp => False
  | .java => (∃ element, node = .queue element) ∨ ∃ record, node = .union record

theorem admittedByC_iff (selected : options.language = some .c) :
    supportFault? options arena type = none ↔ AdmittedByC options.kernel arena type := by
  unfold supportFault?
  rw [selected]
  constructor
  · intro supported
    refine
      { noMap := fun key value isMap => by simp [isMap] at supported
        noQueue := fun element isQueue => by simp [isQueue] at supported
        noSequenceable := fun declared isSequenceable => by simp [isSequenceable] at supported
        flat := fun isContainer element holds => ?_
        kernelNoDescriptor := fun isKernel isDescriptor => by
          simp [isDescriptor, isKernel] at supported
        kernelNoInterface := fun isKernel => ?_ }
    · unfold TypeArena.HoldsElement at holds
      cases node : arena.node type <;> simp_all [TypeNode.elements]
    · unfold TypeArena.interface?
      cases node : arena.node type <;> simp_all
  · rintro ⟨noMap, noQueue, noSequenceable, flat, noDescriptor, noInterface⟩
    cases node : arena.node type with
    | map key value => exact absurd node (noMap key value)
    | queue element => exact absurd node (noQueue element)
    | sequenceable declared => exact absurd node (noSequenceable declared)
    | primitive kind => cases kind <;> simp_all
    | array element | list element =>
        simp_all [TypeNode.isContainer, TypeArena.HoldsElement, TypeNode.elements]
    | interface declared => simp_all [TypeArena.interface?]
    | _ => rfl

theorem admittedByJava_iff (selected : options.language = some .java) :
    supportFault? options arena type = none ↔ AdmittedByJava arena type := by
  unfold supportFault?
  rw [selected]
  constructor
  · intro supported
    refine
      { noUnion := fun record isUnion => by simp [isUnion] at supported
        noQueue := fun element isQueue => by simp [isQueue] at supported
        noCallback := fun declared found => ?_ }
    unfold TypeArena.interface? at found
    cases node : arena.node type <;> simp_all
  · rintro ⟨noUnion, noQueue, noCallback⟩
    cases node : arena.node type with
    | union record => exact absurd node (noUnion record)
    | queue element => exact absurd node (noQueue element)
    | interface declared => simp_all [TypeArena.interface?]
    | _ => rfl

/-- The check of a type expression is the matrix. -/
theorem supportFault?_eq_none_iff {language : Language}
    (selected : options.language = some language) :
    supportFault? options arena type = none ↔ language.Admits options.kernel arena type := by
  cases language with
  | c => exact admittedByC_iff selected
  | java => exact admittedByJava_iff selected
  | cpp =>
      unfold supportFault?
      rw [selected]
      exact ⟨fun _ => trivial, fun _ => rfl⟩

end Matrix

namespace TypeArena

variable {options : Options} {mark : Nat} {arena before after : TypeArena}

/-- A type of the arena that is no interface. -/
structure NoInterface (arena : TypeArena) (type : TypeId) : Prop where
  inside : type < arena.size
  absent : arena.interface? type = none

theorem NoInterface.lasting : Lasting NoInterface := by
  intro before after type none grown
  exact ⟨Nat.lt_of_lt_of_le none.inside grown.size_le,
    grown.interface?_eq_none none.inside none.absent⟩

/-- What the checks of a file have settled about the types from a number on. -/
structure CheckedFrom (options : Options) (mark : Nat) (arena : TypeArena) : Prop where
  supported : arena.SupportedFrom options mark
  own : PartsFrom TypeNode.parts (OwnFrom mark) mark arena
  elements : PartsFrom TypeNode.elements NoInterface mark arena

theorem Change.elementsFrom {first : Nat} (change : Change options mark before after)
    (elements : PartsFrom TypeNode.elements NoInterface first before) :
    PartsFrom TypeNode.elements NoInterface first after := by
  cases change with
  | @add node addable =>
      apply elements.alloc rfl NoInterface.lasting
      intro element listed
      have isPart : element ∈ node.parts := by
        cases node <;> simp_all [TypeNode.elements, TypeNode.parts]
      exact ⟨(addable.own element isPart).inside, addable.elements element listed⟩
  | @fill id members fillable =>
      apply elements.update rfl NoInterface.lasting id (setMembers_outline members)
      intro element listed
      rw [← TypeNode.elements_outline, setMembers_outline, TypeNode.elements_outline] at listed
      exact .inl listed
  | mark id =>
      apply elements.update rfl NoInterface.lasting id markSerializable_outline
      intro element listed
      rw [← TypeNode.elements_outline, markSerializable_outline,
        TypeNode.elements_outline] at listed
      exact .inl listed

theorem Builds.checkedFrom (builds : Builds options before.size before after) :
    CheckedFrom options before.size after where
  supported := builds.supportedFrom (.ofSize rfl before)
  own := builds.ownFrom (.ofSize rfl before)
  elements := by
    induction builds with
    | refl => exact .ofSize rfl before
    | tail _ change ih => exact change.elementsFrom ih

/-- The brackets of an array that passed the check hide its element only. -/
theorem hidesInArray_of_unsupported {language : Language} {array element : TypeId}
    (selected : options.language = some language) (isArray : arena.node array = .array element)
    (admitted : language.Admits options.kernel arena array)
    (notInterface : arena.interface? element = none)
    (refused : ¬language.Admits options.kernel arena element) :
    language.HidesInArray options.kernel (arena.node element) := by
  rw [← supportFault?_eq_none_iff selected] at refused
  unfold supportFault? at refused
  rw [selected] at refused
  cases language with
  | cpp => exact absurd rfl refused
  | java =>
      unfold interface? at notInterface
      cases node : arena.node element <;> simp_all [Language.HidesInArray]
  | c =>
      have flat : (arena.node element).isContainer = false := by
        apply admitted.flat (by rw [isArray]; rfl)
        rw [HoldsElement, isArray]
        exact List.mem_singleton_self element
      unfold interface? at notInterface
      cases node : arena.node element with
      | primitive kind => cases kind <;> simp_all [Language.HidesInArray]
      | _ => simp_all [Language.HidesInArray, TypeNode.isContainer]

/-- Containers from the mark on lead to types that are in the matrix, or hidden by brackets. -/
theorem CheckedFrom.admitted_or_hidden {language : Language} {part type : TypeId}
    (checked : arena.CheckedFrom options mark) (selected : options.language = some language)
    (usable : Usable options arena part) (own : arena.OwnFrom mark part)
    (path : ReflTransGen arena.HoldsElement part type) :
    arena.OwnFrom mark type ∧
      (language.Admits options.kernel arena type ∨
        ∃ array, ReflTransGen arena.HoldsElement part array ∧ arena.node array = .array type ∧
          language.HidesInArray options.kernel (arena.node type)) := by
  induction path with
  | refl => exact ⟨own, .inl ((supportFault?_eq_none_iff selected).mp usable.supported)⟩
  | @tail outer inner path holds ih =>
      obtain ⟨outerOwn, outerChecked⟩ := ih
      have above := outerOwn.from_mark inner holds
      refine ⟨checked.own outer above inner holds.mem_parts, ?_⟩
      rcases TypeNode.mem_checkedParts_of_mem_elements holds with isArray | isChecked
      · by_cases admitted : language.Admits options.kernel arena inner
        · exact .inl admitted
        · -- An array is not what brackets hide, so it has passed the check itself.
          have outerAdmitted : language.Admits options.kernel arena outer := by
            refine outerChecked.resolve_right ?_
            rintro ⟨-, -, -, hidden⟩
            rw [isArray] at hidden
            cases language <;> simp [Language.HidesInArray] at hidden
          have notInterface := (checked.elements outer above inner holds).absent
          exact .inr ⟨outer, path, isArray,
            hidesInArray_of_unsupported selected isArray outerAdmitted notInterface admitted⟩
      · have usable := checked.supported outer above inner isChecked
        exact .inl ((supportFault?_eq_none_iff selected).mp usable.supported)

/-- The types of the first arena stand in the second, and interfaces among them may be marked. -/
structure KeepsNodes (before after : TypeArena) : Prop where
  size_le : before.size ≤ after.size
  nodes : ∀ id < before.size, after.node id = before.node id ∨
    after.node id = markSerializable (before.node id)

namespace KeepsNodes

variable {id outer type : TypeId} (keeps : before.KeepsNodes after)

include keeps

theorem toExtends : before.Extends after where
  size_le := keeps.size_le
  outline_eq id inside := by
    rcases keeps.nodes id inside with same | marked
    · rw [same]
    · rw [marked, markSerializable_outline]

theorem node_eq (inside : id < before.size) (notInterface : before.interface? id = none) :
    after.node id = before.node id := by
  rcases keeps.nodes id inside with same | marked
  · exact same
  · rw [marked]
    unfold interface? at notInterface
    cases node : before.node id <;> simp_all [markSerializable]

/-- Elements that are reached from an old type were reached before. -/
theorem path_iff (sound : before.Sound) (inside : outer < before.size) :
    ReflTransGen after.HoldsElement outer type ↔
      ReflTransGen before.HoldsElement outer type ∧ type < before.size := by
  constructor
  · intro path
    induction path with
    | refl => exact ⟨.refl, inside⟩
    | tail _ holds ih =>
        have held := (keeps.toExtends.holdsElement_iff ih.2).mp holds
        exact ⟨ih.1.tail held, sound.parts_lt _ _ held.mem_parts⟩
  · rintro ⟨path, -⟩
    exact keeps.toExtends.holdsElement_path path

end KeepsNodes

end TypeArena

namespace CompiledUnit

variable {program before after : Program} {unit : CompiledUnit} {id part type : TypeId}

/-- The type of a member of a struct or union, or of a parameter of a method. -/
inductive Spells (program : Program) (unit : CompiledUnit) : TypeId → Prop where
  | member {id : TypeId} {record : RecordType} {member : Member} (defined : id ∈ unit.definitions)
      (isRecord : program.types.record? id = some record) (listed : member ∈ record.members) :
      Spells program unit member.type
  | parameter {interface : InterfaceType} {method : Method} {parameter : Parameter}
      (found : program.interfaceOf? unit = some interface) (isMethod : method ∈ interface.methods)
      (isParameter : parameter ∈ method.parameters) : Spells program unit parameter.type

/-- A type that a member or parameter of the unit leads to through the elements of containers. -/
def Reaches (program : Program) (unit : CompiledUnit) (type : TypeId) : Prop :=
  ∃ part, unit.Spells program part ∧ ReflTransGen program.types.HoldsElement part type

/-- A struct, union or interface of the unit. -/
def Declares (program : Program) (unit : CompiledUnit) (id : TypeId) : Prop :=
  id ∈ unit.definitions ∧ (program.types.record? id).isSome ∨
    unit.interface = some id ∧ (program.types.interface? id).isSome

theorem spells_iff : unit.Spells program part ↔
    ∃ id, unit.Declares program id ∧ part ∈ (program.types.node id).checkedParts := by
  constructor
  · rintro (⟨defined, isRecord, listed⟩ | ⟨found, isMethod, isParameter⟩)
    · rename_i id record member
      refine ⟨id, .inl ⟨defined, by rw [isRecord]; rfl⟩, ?_⟩
      rw [TypeArena.record?_eq] at isRecord
      cases node : program.types.node id <;> simp_all [TypeNode.record?, TypeNode.checkedParts,
        TypeNode.parts]
      all_goals exact ⟨member, listed, rfl⟩
    · rename_i interface method parameter
      obtain ⟨id, isInterface, found⟩ := Option.bind_eq_some_iff.mp found
      refine ⟨id, .inr ⟨isInterface, by rw [found]; rfl⟩, ?_⟩
      unfold TypeArena.interface? at found
      cases node : program.types.node id <;> simp_all [TypeNode.checkedParts, TypeNode.parts]
      exact ⟨method, isMethod, parameter, isParameter, rfl⟩
  · rintro ⟨id, ⟨defined, isRecord⟩ | ⟨isInterface, found⟩, listed⟩
    · obtain ⟨record, isRecord⟩ := Option.isSome_iff_exists.mp isRecord
      have isMember : part ∈ record.members.map Member.type := by
        rw [TypeArena.record?_eq] at isRecord
        cases node : program.types.node id <;> simp_all [TypeNode.record?, TypeNode.checkedParts,
          TypeNode.parts]
      obtain ⟨member, inRecord, rfl⟩ := List.mem_map.mp isMember
      exact .member defined isRecord inRecord
    · obtain ⟨interface, found⟩ := Option.isSome_iff_exists.mp found
      have isParameter : part ∈ interface.methods.flatMap fun method =>
          method.parameters.map Parameter.type := by
        unfold TypeArena.interface? at found
        cases node : program.types.node id <;> simp_all [TypeNode.checkedParts, TypeNode.parts]
      obtain ⟨method, isMethod, ofMethod⟩ := List.mem_flatMap.mp isParameter
      obtain ⟨parameter, inMethod, rfl⟩ := List.mem_map.mp ofMethod
      exact .parameter (Option.bind_eq_some_iff.mpr ⟨id, isInterface, found⟩) isMethod inMethod

/-- What a unit declares and reaches does not change while types are added. -/
theorem declares_iff (keeps : before.types.KeepsNodes after.types) (shape : unit.Shape before) :
    unit.Declares after id ↔ unit.Declares before id := by
  have sameRecord (inside : id < before.types.size) :
      after.types.record? id = before.types.record? id := by
    apply TypeArena.record?_congr
    rcases keeps.nodes id inside with same | marked
    · rw [same]
    · rw [marked, record?_markSerializable]
  have sameInterface (inside : id < before.types.size) :
      (after.types.interface? id).isSome = (before.types.interface? id).isSome := by
    have same := congrArg Option.isSome (keeps.toExtends.unmarked?_eq inside)
    simpa [TypeArena.unmarked?_eq] using same
  constructor
  · rintro (⟨defined, isRecord⟩ | ⟨isInterface, found⟩)
    · exact .inl ⟨defined, sameRecord (shape.lt_size (.inl defined)) ▸ isRecord⟩
    · exact .inr ⟨isInterface, sameInterface (shape.lt_size (.inr isInterface)) ▸ found⟩
  · rintro (⟨defined, isRecord⟩ | ⟨isInterface, found⟩)
    · exact .inl ⟨defined, (sameRecord (shape.lt_size (.inl defined))).symm ▸ isRecord⟩
    · exact .inr ⟨isInterface, (sameInterface (shape.lt_size (.inr isInterface))).symm ▸ found⟩

theorem Declares.lt_size (declares : unit.Declares program id) (shape : unit.Shape program) :
    id < program.types.size :=
  shape.lt_size (declares.imp And.left And.left)

theorem reaches_iff (keeps : before.types.KeepsNodes after.types) (sound : before.types.Sound)
    (shape : unit.Shape before) :
    unit.Reaches after type ↔ unit.Reaches before type ∧ type < before.types.size := by
  have sameParts {id : TypeId} (inside : id < before.types.size) :
      (after.types.node id).checkedParts = (before.types.node id).checkedParts := by
    rcases keeps.nodes id inside with same | marked
    · rw [same]
    · rw [marked, markSerializable_checkedParts]
  simp only [Reaches, spells_iff]
  constructor
  · rintro ⟨part, ⟨id, declares, listed⟩, path⟩
    have declares := (declares_iff keeps shape).mp declares
    rw [sameParts (declares.lt_size shape)] at listed
    have inside := sound.parts_lt id part (TypeNode.mem_parts_of_mem_checkedParts listed)
    obtain ⟨path, typeInside⟩ := (keeps.path_iff sound inside).mp path
    exact ⟨⟨part, ⟨id, declares, listed⟩, path⟩, typeInside⟩
  · rintro ⟨⟨part, ⟨id, declares, listed⟩, path⟩, -⟩
    refine ⟨part, ⟨id, (declares_iff keeps shape).mpr declares, ?_⟩,
      keeps.toExtends.holdsElement_path path⟩
    rw [sameParts (declares.lt_size shape)]
    exact listed

end CompiledUnit

namespace Program

variable {program : Program} {options : Options} {unit : CompiledUnit} {start read : ParseState}
  {outcome : ParseOutcome}

theorem WellFormed.keepsNodes (wellFormed : program.WellFormed) (options : Options)
    (diagnostics : List Diagnostic) (path : Path) (source : String) :
    program.types.KeepsNodes
      (program.parseSource options diagnostics path source).program.types := by
  obtain ⟨read, advanced, rejects | accepts⟩ :=
    parseSource_cases wellFormed options diagnostics path source
  · obtain ⟨size, nodes⟩ := rejects.types advanced wellFormed.types
    exact ⟨Nat.le_of_eq size.symm, fun id below => (nodes id below).imp_right And.right⟩
  · rw [accepts.types_eq]
    exact ⟨accepts.built.types.size_le,
      fun id below => (advanced.nodes id below).imp_right And.right⟩

/-- A unit of types defines no interface. -/
theorem interface?_of_types (shape : unit.Shape program) (kind : unit.kind = .types) {id : TypeId}
    (defined : id ∈ unit.definitions) : program.types.interface? id = none := by
  unfold TypeArena.interface?
  cases shape with
  | sequenceable type isSequenceable =>
      rw [kind] at isSequenceable
      cases isSequenceable
  | types isTypes noInterface definitions declared =>
      obtain ⟨found, isDeclared, notInterface⟩ := declared id defined
      cases node : program.types.node id with
      | interface other =>
          rw [node] at isDeclared
          cases isDeclared
          exact absurd rfl notInterface
      | _ => rfl
  | interface type isInterface some definitions =>
      rw [definitions] at defined
      cases defined

/-- What a new unit declares was built by its text. -/
theorem Accepts.declares_new (accepts : Accepts options start read outcome)
    (wellFormed : start.program.WellFormed) (advanced : start.Advances start.types.size read)
    (listed : unit ∈ outcome.program.units) (new : unit ∉ start.program.units) {id : TypeId}
    (declares : unit.Declares outcome.program id) : start.types.size ≤ id := by
  have types := accepts.types_eq
  rw [CompiledUnit.Declares, types] at declares
  rcases accepts.mem_units listed with isOld | ⟨entry, isListed, rfl⟩
    | ⟨state, published, rfl, absent, -⟩
  · exact absurd (advanced.units ▸ isOld) new
  · -- A sequenceable that was set aside holds no members and no methods.
    obtain ⟨-, package, name, namespaceId, type, rfl, -, -, -, node⟩ :=
      accepts.built.sequenceables entry isListed
    rcases declares with ⟨defined, isRecord⟩ | ⟨impossible, -⟩
    · obtain rfl := List.mem_singleton.mp defined
      rw [TypeArena.record?_eq, node] at isRecord
      cases isRecord
    · cases impossible
  · have definitions : state.unit.definitions = read.unit.definitions := by rw [published.unit]; rfl
    have interface : state.unit.interface = read.unit.interface := by rw [published.unit]; rfl
    rw [definitions, interface] at declares
    rcases declares with ⟨defined, -⟩ | ⟨isInterface, found⟩
    · exact accepts.built.defined id defined
    · obtain ⟨inTable, ⟨behind, -⟩ | origin⟩ := accepts.built.interface id isInterface
      · exact behind
      · -- A type that was imported under the name of the unit is no interface.
        have noDefinitions : read.unit.definitions = [] := by
          rcases accepts.oneThing with ⟨noInterface, -⟩ | ⟨-, noDefinitions⟩
          · rw [noInterface] at isInterface
            cases isInterface
          · exact noDefinitions
        obtain ⟨inside, denotes⟩ := accepts.sound.table _ inTable
        obtain ⟨name, unitId, imported, -, -, importedSound, kind, defined⟩ :=
          imported_of_origin wellFormed advanced accepts.sound accepts.built published absent
            noDefinitions denotes origin
        rw [interface?_of_types importedSound.shape kind defined] at found
        cases found

/-- The unit of a program comes from a text that was accepted under the options.  Other texts may
have been read before and after it, accepted or not, under any options. -/
inductive AcceptsUnit (options : Options) (unit : CompiledUnit) : Program → Prop where
  | accept {program : Program} (diagnostics : List Diagnostic) (path : Path) (source : String)
      (reachable : program.Reachable)
      (accepted : (program.parseSource options diagnostics path source).accepted = true)
      (listed : unit ∈ (program.parseSource options diagnostics path source).program.units)
      (new : unit ∉ program.units) :
      AcceptsUnit options unit (program.parseSource options diagnostics path source).program
  | parse {program : Program} (other : Options) (diagnostics : List Diagnostic) (path : Path)
      (source : String) (earlier : AcceptsUnit options unit program) :
      AcceptsUnit options unit (program.parseSource other diagnostics path source).program

theorem mem_units_parseSource (wellFormed : program.WellFormed) (listed : unit ∈ program.units)
    (options : Options) (diagnostics : List Diagnostic) (path : Path) (source : String) :
    unit ∈ (program.parseSource options diagnostics path source).program.units := by
  obtain ⟨read, advanced, rejects | accepts⟩ :=
    parseSource_cases wellFormed options diagnostics path source
  · rw [rejects.program, advanced.units]
    exact listed
  · obtain ⟨added, units⟩ := (accepts.wellFormed wellFormed advanced).1.units
    rw [units]
    exact Array.mem_append_left _ listed

theorem AcceptsUnit.reachable_and_listed (accepts : program.AcceptsUnit options unit) :
    program.Reachable ∧ unit ∈ program.units := by
  induction accepts with
  | accept diagnostics path source reachable accepted listed new =>
      exact ⟨.parse options diagnostics path source reachable, listed⟩
  | parse other diagnostics path source earlier ih =>
      exact ⟨.parse other diagnostics path source ih.1,
        mem_units_parseSource ih.1.wellFormed ih.2 other diagnostics path source⟩

/-- Every type that a unit reaches is one that its language has, but for queues, sequenceables, file
descriptors and unions that are the element of an array. -/
theorem accepted_types_admitted {language : Language} (selected : options.language = some language)
    (accepts : program.AcceptsUnit options unit) {type : TypeId}
    (reaches : unit.Reaches program type) :
    language.Admits options.kernel program.types type ∨
      ∃ array, unit.Reaches program array ∧ program.types.node array = .array type ∧
        language.HidesInArray options.kernel (program.types.node type) := by
  induction accepts generalizing type with
  | @accept program diagnostics path source reachable accepted listed new =>
      have wellFormed := reachable.wellFormed
      obtain ⟨read, advanced, accepts⟩ := accepts_of_accepted wellFormed accepted
      have checked : (program.parseSource options diagnostics path source).program.types.CheckedFrom
          options program.types.size := by
        rw [accepts.types_eq]
        exact accepts.built.builds.checkedFrom
      obtain ⟨part, spells, walk⟩ := reaches
      obtain ⟨id, declares, isPart⟩ := CompiledUnit.spells_iff.mp spells
      have behind := accepts.declares_new wellFormed advanced listed new declares
      have usable := checked.supported id behind part isPart
      have own := checked.own id behind part (TypeNode.mem_parts_of_mem_checkedParts isPart)
      refine (checked.admitted_or_hidden selected usable own walk).2.imp_right ?_
      rintro ⟨array, toArray, isArray, hidden⟩
      exact ⟨array, ⟨part, spells, toArray⟩, isArray, hidden⟩
  | @parse program other diagnostics path source earlier ih =>
      obtain ⟨reachable, listed⟩ := earlier.reachable_and_listed
      have wellFormed := reachable.wellFormed
      have keeps := wellFormed.keepsNodes other diagnostics path source
      have shape := (wellFormed.units unit listed).shape
      obtain ⟨reached, inside⟩ :=
        (CompiledUnit.reaches_iff keeps wellFormed.types shape).mp reaches
      rcases ih reached with admitted | ⟨array, toArray, isArray, hidden⟩
      · have supported := (supportFault?_eq_none_iff selected).mpr admitted
        have usable := Usable.of_sound wellFormed.types inside supported
        have still := (usable.extend keeps.toExtends).supported
        exact .inl ((supportFault?_eq_none_iff selected).mp still)
      · have arrayInside : array < program.types.size := by
          by_contra outside
          rw [TypeArena.node_of_size_le (Nat.le_of_not_lt outside)] at isArray
          cases isArray
        have sameArray := keeps.node_eq arrayInside (by simp [TypeArena.interface?, isArray])
        have sameType := keeps.node_eq inside (by
          unfold TypeArena.interface?
          cases node : program.types.node type <;> cases language <;>
            simp_all [Language.HidesInArray])
        refine .inr ⟨array, ?_, sameArray.trans isArray, sameType ▸ hidden⟩
        exact (CompiledUnit.reaches_iff keeps wellFormed.types shape).mpr ⟨toArray, arrayInside⟩

/-- A file with a struct that has an array of some elements. -/
def arrayOf (options : Options) (element : String) : ParseOutcome :=
  ({} : Program).parseSource options [] ⟨"a/v1_0/Types.idl"⟩
    ("package a.v1_0; struct S \x7b " ++ element ++ "[] x; \x7d;")

/-- What the file leaves behind: a struct whose only member is an array of the type. -/
def LeavesArray (outcome : ParseOutcome) (array type : TypeId) : Prop :=
  outcome.accepted = true ∧
    (outcome.program.units[0]?).map CompiledUnit.definitions = some [14] ∧
    (outcome.program.types.record? 14).map (·.members.map Member.type) = some [array] ∧
    outcome.program.types.node array = .array type

instance (outcome : ParseOutcome) (array type : TypeId) :
    Decidable (LeavesArray outcome array type) :=
  inferInstanceAs (Decidable (_ ∧ _ ∧ _ ∧ _))

theorem LeavesArray.exists_reaches {element : String} {array type : TypeId}
    (leaves : LeavesArray (arrayOf options element) array type) :
    ∃ unit, (arrayOf options element).program.AcceptsUnit options unit ∧
      unit.Reaches (arrayOf options element).program type := by
  obtain ⟨accepted, definitions, members, isArray⟩ := leaves
  obtain ⟨unit, present, isDefinitions⟩ := Option.map_eq_some_iff.mp definitions
  obtain ⟨record, isRecord, isMembers⟩ := Option.map_eq_some_iff.mp members
  obtain ⟨member, listed, isType⟩ : ∃ member ∈ record.members, member.type = array :=
    List.mem_map.mp (by rw [isMembers]; exact List.mem_singleton_self _)
  refine ⟨unit, .accept [] _ _ .empty accepted (Array.mem_of_getElem? present) (by simp),
    member.type, .member (by simp [isDefinitions]) isRecord listed, .single ?_⟩
  rw [isType, TypeArena.HoldsElement, isArray]
  exact List.mem_singleton_self type

/-- Options for the languages that do not have every type. -/
def toC : Options := { language := some .c }

def toKernelC : Options := { language := some .c, kernel := true }

def toJava : Options := { language := some .java }

theorem leavesArray_of_maps :
    LeavesArray (arrayOf toJava "Map<String, int>") 16 15 ∧
      (arrayOf toJava "Map<String, int>").program.types.node 15 =
        .map Primitive.string.id Primitive.int.id := by
  decide +kernel

theorem mapped_array_admitted : ∃ unit,
    (arrayOf toJava "Map<String, int>").program.AcceptsUnit toJava unit ∧
      unit.Reaches (arrayOf toJava "Map<String, int>").program 15 ∧
      Language.java.Admits false (arrayOf toJava "Map<String, int>").program.types 15 := by
  obtain ⟨leaves, isMap⟩ := leavesArray_of_maps
  obtain ⟨unit, accepts, reaches⟩ := leaves.exists_reaches
  refine ⟨unit, accepts, reaches, (accepted_types_admitted rfl accepts reaches).resolve_right ?_⟩
  rintro ⟨-, -, -, hidden⟩
  simp [isMap, Language.HidesInArray] at hidden

theorem queueArrays_spec :
    (LeavesArray (arrayOf toC "SharedMemQueue<int>") 16 15 ∧
      supportFault? toC (arrayOf toC "SharedMemQueue<int>").program.types 15 ≠ none) ∧
    (LeavesArray (arrayOf toJava "SharedMemQueue<int>") 16 15 ∧
      supportFault? toJava (arrayOf toJava "SharedMemQueue<int>").program.types 15 ≠ none) := by
  decide +kernel

theorem descriptorArray_spec : LeavesArray (arrayOf toKernelC "FileDescriptor") 15 12 ∧
    supportFault? toKernelC (arrayOf toKernelC "FileDescriptor").program.types 12 ≠ none := by
  decide +kernel

/-- Brackets hide a queue from the check in C and in Java, and a file descriptor in a kernel. -/
theorem unsupported_elements_accepted :
    (∃ unit, (arrayOf toC "SharedMemQueue<int>").program.AcceptsUnit toC unit ∧
      unit.Reaches (arrayOf toC "SharedMemQueue<int>").program 15 ∧
      ¬Language.c.Admits false (arrayOf toC "SharedMemQueue<int>").program.types 15) ∧
    (∃ unit, (arrayOf toKernelC "FileDescriptor").program.AcceptsUnit toKernelC unit ∧
      unit.Reaches (arrayOf toKernelC "FileDescriptor").program 12 ∧
      ¬Language.c.Admits true (arrayOf toKernelC "FileDescriptor").program.types 12) ∧
    (∃ unit, (arrayOf toJava "SharedMemQueue<int>").program.AcceptsUnit toJava unit ∧
      unit.Reaches (arrayOf toJava "SharedMemQueue<int>").program 15 ∧
      ¬Language.java.Admits false (arrayOf toJava "SharedMemQueue<int>").program.types 15) := by
  have refuted {options : Options} {language : Language} {element : String} {array type : TypeId}
      (selected : options.language = some language)
      (spec : LeavesArray (arrayOf options element) array type ∧
        supportFault? options (arrayOf options element).program.types type ≠ none) :
      ∃ unit, (arrayOf options element).program.AcceptsUnit options unit ∧
        unit.Reaches (arrayOf options element).program type ∧
        ¬language.Admits options.kernel (arrayOf options element).program.types type := by
    obtain ⟨unit, accepts, reaches⟩ := spec.1.exists_reaches
    exact ⟨unit, accepts, reaches, fun admitted =>
      spec.2 ((supportFault?_eq_none_iff selected).mpr admitted)⟩
  exact ⟨refuted rfl queueArrays_spec.1, refuted rfl descriptorArray_spec,
    refuted rfl queueArrays_spec.2⟩

end Program

end DriverIdl
