import DriverIdl.Proofs.Parsing.Publication
import Mathlib.Order.Defs.Unbundled

/-!
# What productions do, move by move

A production takes tokens, reports faults and changes the unit and the types of the program, one
thing at a time, whether it answers or leaves.  `Move` lists these changes, and `Walks` says that a
production goes from the state before it to the state behind it by such moves, from whatever state it
is run.  What all moves keep is therefore kept at every point of a file.
-/

namespace DriverIdl

open Relation

/-- Faults that only the statements of a header have. -/
def SourceFault.isOfHeader : SourceFault → Bool
  | .package _ | .placement _ | .importedTwice _ | .notCompiled _ | .sequenceablePackage _ => true
  | _ => false

/-- Faults that are found behind the header. -/
def SourceFault.OfBody (fault : SourceFault) : Prop := fault.isOfHeader = false

/-- Faults that do not concern the place of the file. -/
def SourceFault.OffPlace (fault : SourceFault) : Prop := ∀ misplaced, fault ≠ .placement misplaced

namespace ParseState

/-- The state in which a type is known under a key. -/
def interned (state : ParseState) (key : TypeKey) (node : TypeNode) : ParseState :=
  let (_, unit, types) := state.unit.intern state.program.types key node
  { state with unit := unit, program := { state.program with types := types } }

/-- The state in which a new sequenceable is visible and its unit is set aside. -/
def setAside (state : ParseState) (full package name : String) (namespaceId : NamespaceId) :
    ParseState :=
  let (type, types) := state.program.types.alloc (.sequenceable ⟨name, namespaceId⟩)
  { state with
    program := { state.program with types := types }
    unit := state.unit.register (.named namespaceId name) type
    sequenceables := state.sequenceables ++
      [(full, Parse.sequenceableUnit state.unit.path package name namespaceId type)] }

/-- One thing that a production does.  The faults that it reports are of a sort. -/
inductive Move (sort : SourceFault → Prop) (before : ParseState) : ParseState → Prop where
  /-- Tokens are taken from the front, or a round is counted. -/
  | take {tokens : List Token} {rounds : Nat} (suffix : tokens <:+ before.tokens) :
      Move sort before { before with tokens := tokens, rounds := rounds }
  /-- A fault is recorded. -/
  | report {place : Position} {fault : SourceFault} (ofSort : sort fault) :
      Move sort before { before with
        errors := before.errors + 1
        diagnostics := before.diagnostics ++ [⟨before.unit.path, place, fault⟩] }
  /-- The type with a key is looked up, and added on first use. -/
  | intern {key : TypeKey} {node : TypeNode} (denotes : key.Denotes node) :
      Move sort before (before.interned key node)
  /-- The unit notes what it declares and imports. -/
  | note {definitions : List TypeId} {interface : Option TypeId}
      {imports : List (String × UnitId)} :
      Move sort before { before with unit := { before.unit with
        definitions := definitions, interface := interface, imports := imports } }
  /-- A type changes, but for its outline. -/
  | amend {id : TypeId} {change : TypeNode → TypeNode}
      (keeps : ∀ node, (change node).outline = node.outline) :
      Move sort before { before with
        program := { before.program with types := before.program.types.update id change } }
  /-- A declared type becomes visible under its name. -/
  | see {key : TypeKey} {type : TypeId} (named : Parse.namedKey? before.types type = some key) :
      Move sort before { before with unit := before.unit.register key type }
  /-- What another unit sees becomes visible. -/
  | share {key : TypeKey} {type : TypeId}
      (offered : ∃ unit ∈ before.program.units, unit.visibleType? key = some type) :
      Move sort before { before with unit := before.unit.register key type }
  /-- The namespace of a package is looked up, and added on first use. -/
  | seek {package : String} :
      Move sort before { before with program :=
        { before.program with namespaces := (before.program.namespaces.intern package).2 } }
  /-- A new sequenceable is set aside. -/
  | setAside {full package name : String} {namespaceId : NamespaceId} :
      Move sort before (before.setAside full package name namespaceId)

/-- Any number of moves. -/
abbrev Moves (sort : SourceFault → Prop) : ParseState → ParseState → Prop :=
  ReflTransGen (Move sort)

instance (sort : SourceFault → Prop) : IsPreorder ParseState (Moves sort) where
  refl _ := .refl
  trans _ _ _ := .trans

/-- A relation that holds along the moves of productions that read types: along those that take
tokens, report a fault of a sort or look up a container. -/
class AdmitsTypes (sort : outParam (SourceFault → Prop)) (relation : ParseState → ParseState → Prop) :
    Prop extends IsPreorder ParseState relation where
  take {before : ParseState} {tokens : List Token} {rounds : Nat} (suffix : tokens <:+ before.tokens) :
    relation before { before with tokens := tokens, rounds := rounds }
  report {before : ParseState} {place : Position} {fault : SourceFault} (ofSort : sort fault) :
    relation before { before with
      errors := before.errors + 1
      diagnostics := before.diagnostics ++ [⟨before.unit.path, place, fault⟩] }
  compose {before : ParseState} {key : TypeKey} {node : TypeNode}
      (composite : key.isComposite = true) (denotes : key.Denotes node) :
    relation before (before.interned key node)

/-- A relation that holds along the moves of all productions but those that change a type: along those
that read types, and those that look up a declared type or note what the unit declares. -/
class Admits (sort : outParam (SourceFault → Prop)) (relation : ParseState → ParseState → Prop) : Prop
    extends AdmitsTypes sort relation where
  intern {before : ParseState} {key : TypeKey} {node : TypeNode}
      (other : key.isComposite = true ∨ key.isNamed = true) (denotes : key.Denotes node) :
    relation before (before.interned key node)
  compose composite denotes := intern (.inl composite) denotes
  note {before : ParseState} {definitions : List TypeId} {interface : Option TypeId} :
    relation before { before with unit := { before.unit with
      definitions := definitions, interface := interface } }

/-- A relation that holds along the moves of all declarations: a type may also get its members. -/
class AdmitsMembers (sort : outParam (SourceFault → Prop)) (relation : ParseState → ParseState → Prop) :
    Prop extends Admits sort relation where
  amend {before : ParseState} {id : TypeId} {change : TypeNode → TypeNode}
      (keeps : ∀ node, (change node).outline = node.outline) :
    relation before { before with
      program := { before.program with types := before.program.types.update id change } }

instance (sort : SourceFault → Prop) : AdmitsMembers sort (Moves sort) where
  take suffix := .single (.take suffix)
  report ofSort := .single (.report ofSort)
  intern _ denotes := .single (.intern denotes)
  note := .single .note
  amend keeps := .single (.amend keeps)

end ParseState

namespace Parse

open ParseState

variable {α β σ : Type}

/-- The state that a production ends in, whether it answers or leaves. -/
def stateAfter (production : Parse α) (before : ParseState) : ParseState :=
  match production before with
  | .ok _ after => after
  | .error _ after => after

section StateAfter

variable {production : Parse α} {before after : ParseState}

theorem stateAfter_ok {value : α} (run : production before = .ok value after) :
    stateAfter production before = after := by
  rw [stateAfter, run]

theorem stateAfter_error {fault : Resync} (run : production before = .error fault after) :
    stateAfter production before = after := by
  rw [stateAfter, run]

theorem stateAfter_bind {first : Parse α} {second : α → Parse β} {value : α}
    (run : first before = .ok value after) :
    stateAfter (first >>= second) before = stateAfter (second value) after := by
  have opened : (first >>= second) before = EStateM.bind first second before := rfl
  rw [stateAfter, opened, EStateM.bind, run]
  rfl

theorem stateAfter_bind_error {first : Parse α} {second : α → Parse β} {fault : Resync}
    (run : first before = .error fault after) : stateAfter (first >>= second) before = after := by
  have opened : (first >>= second) before = EStateM.bind first second before := rfl
  rw [stateAfter, opened, EStateM.bind, run]

theorem attempt_eq (production : Parse α) (before : ParseState) :
    ∃ result, attempt production before = .ok result (stateAfter production before) := by
  simp only [attempt, stateAfter]
  cases production before with
  | ok value after => exact ⟨some value, rfl⟩
  | error fault after => exact ⟨none, rfl⟩

theorem stateAfter_of_attempt {result : Option α}
    (run : attempt production before = .ok result after) :
    stateAfter production before = after := by
  obtain ⟨answer, runToo⟩ := attempt_eq production before
  cases runToo.symm.trans run
  rfl

end StateAfter

/-- A struct or union behind its name. -/
def recordBehindName (options : Options) (found : Attributes) (isUnion : Bool) (name : Token) :
    Parse Unit := do
  let fresh ← checkNewName name.text name.place
  let unit := (← get).unit
  let record : RecordType :=
    ⟨name.text, unit.namespaceId, unit.name, [], found, name.place⟩
  let id ←
    if fresh then
      some <$> declare name.text (if isUnion then .union record else .struct record)
    else pure none
  recordBody options (if isUnion then "union" else "struct") name id

/-- Every run of a production leads to a state that stands in a relation to the one before. -/
def Runs (relation : ParseState → ParseState → Prop) (production : Parse α) : Prop :=
  ∀ before, relation before (stateAfter production before)

namespace Runs

variable {relation : ParseState → ParseState → Prop} {production : Parse α}

theorem ok {before after : ParseState} {value : α} (runs : Runs relation production)
    (run : production before = .ok value after) : relation before after :=
  stateAfter_ok run ▸ runs before

theorem error {before after : ParseState} {fault : Resync} (runs : Runs relation production)
    (run : production before = .error fault after) : relation before after :=
  stateAfter_error run ▸ runs before

theorem changes {change : ParseState → ParseState} (related : ∀ state, relation state (change state)) :
    Runs relation (modify change) := related

theorem attempt (runs : Runs relation production) : Runs relation (attempt production) := by
  intro before
  obtain ⟨result, run⟩ := attempt_eq production before
  rw [stateAfter_ok run]
  exact runs before

theorem ite {condition : Prop} [Decidable condition] {other : Parse α}
    (holds : Runs relation production) (fails : Runs relation other) :
    Runs relation (if condition then production else other) := by
  split
  · exact holds
  · exact fails

theorem getBindAt {second : ParseState → Parse α} {before : ParseState}
    (goesOn : relation before (stateAfter (second before) before)) :
    relation before (stateAfter (MonadState.get >>= second) before) := goesOn

theorem getBind {second : ParseState → Parse α}
    (goesOn : ∀ state, relation state (stateAfter (second state) state)) :
    Runs relation (MonadState.get >>= second) := goesOn

section Preorder

variable [IsPreorder ParseState relation]

theorem pure (value : α) : Runs relation (Pure.pure value) := fun before => refl_of relation before

theorem leave : Runs relation (throw .resync : Parse α) := fun before => refl_of relation before

theorem get : Runs relation (get : Parse ParseState) := fun before => refl_of relation before

theorem types : Runs relation types := fun before => refl_of relation before

theorem peek : Runs relation peek := fun before => refl_of relation before

/-- What is known of the first part at one state only. -/
theorem bindAt {first : Parse α} {second : α → Parse β} {before : ParseState}
    (starts : relation before (stateAfter first before))
    (goesOn : ∀ value, Runs relation (second value)) :
    relation before (stateAfter (first >>= second) before) := by
  cases firstRun : first before with
  | error fault after =>
      rw [stateAfter_bind_error firstRun]
      rwa [stateAfter_error firstRun] at starts
  | ok value state =>
      rw [stateAfter_bind firstRun]
      rw [stateAfter_ok firstRun] at starts
      exact trans_of relation starts (goesOn value state)

theorem bind {first : Parse α} {second : α → Parse β} (starts : Runs relation first)
    (goesOn : ∀ value, Runs relation (second value)) : Runs relation (first >>= second) :=
  fun before => bindAt (starts before) goesOn

/-- A choice between two parts that go on alike. -/
theorem bindIf {condition : Prop} [Decidable condition] {first other : Parse α}
    {rest : α → Parse β} (holds : Runs relation first) (fails : Runs relation other)
    (goesOn : ∀ value, Runs relation (rest value)) :
    Runs relation (if condition then first >>= rest else other >>= rest) :=
  ite (bind holds goesOn) (bind fails goesOn)

theorem loopWithin {step : σ → Parse (σ ⊕ α)} (each : ∀ current, Runs relation (step current))
    (rounds : Nat) (current : σ) : Runs relation (loopWithin step rounds current) := by
  induction rounds generalizing current with
  | zero => exact leave
  | succ rounds ih =>
      apply bind (each current)
      intro result
      cases result with
      | inl next => exact ih next
      | inr value => exact pure value

theorem forM {items : List α} {each : α → Parse PUnit}
    (one : ∀ item, Runs relation (each item)) : Runs relation (items.forM each) := by
  induction items with
  | nil => exact pure PUnit.unit
  | cons item rest ih => exact bind (one item) fun _ => ih

end Preorder

section Moves

variable {sort : SourceFault → Prop} {production : Parse α}

/-- A change of the state that is one move. -/
theorem moves {change : ParseState → ParseState} (move : ∀ state, Move sort state (change state)) :
    Runs (Moves sort) (modify change : Parse Unit) := fun state => .single (move state)

section Admitted

variable [admits : AdmitsTypes sort relation]

include admits

theorem report {place : Position} {fault : SourceFault} (ofSort : sort fault) :
    Runs relation (report place fault) := changes fun _ => AdmitsTypes.report ofSort

theorem fail {place : Position} {fault : SourceFault} (ofSort : sort fault) :
    Runs relation (fail place fault : Parse α) := fun _ => AdmitsTypes.report ofSort

/-- A fault that is reported on a condition in front of a part. -/
theorem reportIf {condition : Prop} [Decidable condition] {place : Position} {fault : SourceFault}
    {rest : PUnit → Parse α} (ofSort : sort fault) (goesOn : Runs relation (rest ⟨⟩)) :
    Runs relation (if condition then Parse.report place fault >>= rest else rest ⟨⟩) :=
  ite (bind (report ofSort) fun _ => goesOn) goesOn

/-- A fault that is reported on a condition, and a result either way. -/
theorem reportOr {condition : Prop} [Decidable condition] {place : Position} {fault : SourceFault}
    {faulty other : α} {rest : α → Parse β} (ofSort : sort fault)
    (goesOn : ∀ value, Runs relation (rest value)) :
    Runs relation
      (if condition then Parse.report place fault >>= fun _ => Pure.pure faulty >>= rest
        else Pure.pure other >>= rest) :=
  ite (bind (report ofSort) fun _ => bind (pure faulty) goesOn) (bind (pure other) goesOn)

/-- A fault that a condition leaves with. -/
theorem failIf {condition : Prop} [Decidable condition] {place : Position} {fault : SourceFault}
    {rest : β → Parse α} (ofSort : sort fault) (goesOn : Runs relation production) :
    Runs relation (if condition then Parse.fail place fault >>= rest else production) :=
  ite (fun _ => AdmitsTypes.report ofSort) goesOn

theorem round {step : σ → Parse (σ ⊕ α)} {current : σ} (runs : Runs relation (step current)) :
    Runs relation (Parse.round step current) :=
  bind (changes fun _ => AdmitsTypes.take (List.suffix_refl _)) fun _ => runs

theorem loop {step : σ → Parse (σ ⊕ α)} {start : σ}
    (each : ∀ current, Runs relation (step current)) : Runs relation (loop step start) :=
  bind get fun _ => loopWithin (fun current => round (each current)) _ start

theorem next : Runs relation next := fun _ => AdmitsTypes.take (List.tail_suffix _)

theorem recoverStatement : Runs relation recoverStatement := by
  intro before
  obtain ⟨rounds, run⟩ := recoverStatement_run before
  rw [stateAfter_ok run]
  exact AdmitsTypes.take (afterStatement_suffix _)

theorem recoverDeclaration : Runs relation recoverDeclaration := by
  intro before
  obtain ⟨rounds, run⟩ := recoverDeclaration_run before
  rw [stateAfter_ok run]
  exact AdmitsTypes.take (afterDeclaration_suffix _ _)

theorem eat (kind : TokenKind) : Runs relation (eat kind) :=
  bind peek fun _ => ite (bind next fun _ => pure true) (pure false)

theorem compose {key : TypeKey} {node : TypeNode} (composite : key.isComposite = true)
    (denotes : key.Denotes node) : Runs relation (intern key node) :=
  fun _ => AdmitsTypes.compose composite denotes

section Tokens

variable (ofToken : ∀ token expected, sort (unexpectedFault token expected))

include ofToken

theorem unexpected (token : Token) (expected : String) :
    Runs relation (unexpected token expected : Parse α) :=
  fail (ofToken token expected)

theorem expect (kind : TokenKind) (expected : String) : Runs relation (expect kind expected) :=
  bind peek fun _ => ite next (unexpected ofToken _ expected)

theorem dottedTail (first : String) : Runs relation (dottedTail first) := by
  apply loop
  intro name
  refine bind (eat .dot) fun taken => ?_
  apply ite
  · exact bind (expect ofToken _ _) fun _ => pure _
  · exact pure _

theorem dottedName (expected : String) : Runs relation (dottedName expected) :=
  bind (expect ofToken _ _) fun _ => bind (dottedTail ofToken _) fun _ => pure _

theorem announcement (keyword : TokenKind) (word expected : String) :
    Runs relation (announcement keyword word expected) :=
  bind (expect ofToken _ _) fun _ => bind (dottedName ofToken _) fun _ =>
    bind (expect ofToken _ _) fun _ => pure _

end Tokens

end Admitted

section Body

open SourceFault

variable {options : Options}

theorem ofBody_unexpected (token : Token) (expected : String) :
    OfBody (unexpectedFault token expected) := by
  unfold unexpectedFault
  split
  · split <;> rfl
  · rfl

section Admitted

variable [AdmitsTypes OfBody relation]

/-- A token that the body of a file expects. -/
theorem expects (kind : TokenKind) (expected : String) :
    Runs relation (Parse.expect kind expected) :=
  expect ofBody_unexpected kind expected

theorem refuses (token : Token) (expected : String) :
    Runs relation (Parse.unexpected token expected : Parse α) :=
  unexpected ofBody_unexpected token expected

theorem checkSupport (type : TypeId) (place : Position) :
    Runs relation (checkSupport options type place) := by
  refine bind types fun arena => ?_
  split
  · exact fail (by rfl)
  · exact pure _

theorem checkElement (type : TypeId) (place : Position) :
    Runs relation (checkElement type place) := by
  refine bind types fun arena => ?_
  split
  · exact fail (by rfl)
  · exact pure _

theorem elementType {typeExpression : Parse TypeId} (inner : Runs relation typeExpression) :
    Runs relation (elementType typeExpression) :=
  bind peek fun _ => bind inner fun _ => bind (checkElement _ _) fun _ => pure _

theorem unsignedType : Runs relation unsignedType := by
  refine bind next fun token => ?_
  split
  all_goals first
    | exact pure _
    | exact refuses _ _

theorem namedType (first : Token) : Runs relation (namedType first) := by
  refine bind (dottedTail ofBody_unexpected _) fun name => ?_
  refine bind get fun state => ?_
  split
  · exact pure _
  · exact fail (by rfl)

theorem arraySuffix (base : TypeId) (place : Position) :
    Runs relation (arraySuffix base place) := by
  apply loop
  intro type
  refine bind (eat _) fun taken => ?_
  apply ite
  · refine bind (expects _ _) fun _ => ?_
    refine bind (checkElement _ _) fun _ => ?_
    exact bind (compose rfl rfl) fun _ => pure _
  · exact pure _

section Containers

variable {typeExpression : Parse TypeId} (inner : Runs relation typeExpression)

include inner

theorem listType : Runs relation (listType typeExpression) :=
  bind (expects _ _) fun _ => bind (elementType inner) fun _ => bind (expects _ _) fun _ =>
    compose rfl rfl

theorem mapType : Runs relation (mapType typeExpression) :=
  bind (expects _ _) fun _ => bind (elementType inner) fun _ => bind (expects _ _) fun _ =>
    bind (elementType inner) fun _ => bind (expects _ _) fun _ => compose rfl rfl

theorem queueType (place : Position) : Runs relation (queueType typeExpression place) := by
  refine bind (expects _ _) fun _ => ?_
  refine bind (elementType inner) fun element => ?_
  refine bind (expects _ _) fun _ => ?_
  refine bind types fun arena => ?_
  exact failIf (by rfl) (compose rfl rfl)

theorem baseType (token : Token) : Runs relation (baseType typeExpression token) := by
  unfold Parse.baseType
  split
  all_goals first
    | exact pure _
    | exact unsignedType
    | exact listType inner
    | exact mapType inner
    | exact queueType inner _
    | exact namedType _
    | exact refuses _ _

end Containers

theorem typeWithin (depth : Nat) : Runs relation (typeWithin options depth) := by
  induction depth with
  | zero => exact leave
  | succ depth ih =>
      exact bind next fun _ => bind (baseType ih _) fun _ => bind (arraySuffix _ _) fun _ =>
        bind (checkSupport _ _) fun _ => pure _

theorem typeExpression : Runs relation (typeExpression options) :=
  bind get fun _ => typeWithin _

theorem oneAttribute (known : Attributes) : Runs relation (oneAttribute known) := by
  refine bind next fun token => ?_
  split
  · exact refuses _ _
  · exact bind (report (by rfl)) fun _ => pure _
  · exact ite (bind (report (by rfl)) fun _ => pure _) (pure _)

theorem attributeRound (known : Attributes) : Runs relation (attributeRound known) := by
  refine bind (oneAttribute known) fun extended => ?_
  refine bind next fun token => ?_
  split
  · exact pure _
  · exact pure _
  · exact refuses _ _

theorem attributes : Runs relation attributes :=
  bind (expects _ _) fun _ => bind (loop attributeRound) fun _ => reportIf (by rfl) (pure _)

theorem optionalAttributes : Runs relation optionalAttributes :=
  bind peek fun _ => ite attributes (pure _)

theorem checkNewName (name : String) (place : Position) :
    Runs relation (checkNewName name place) :=
  bind get fun _ => ite (bind (report (by rfl)) fun _ => pure _) (pure _)

theorem checkTypeAttributes (declaration : String) (found : Attributes) (place : Position) :
    Runs relation (checkTypeAttributes declaration found place) :=
  ite (report (by rfl)) (pure _)

theorem enumBase : Runs relation (enumBase options) := by
  refine bind (eat _) fun taken => ?_
  apply ite
  · refine bind peek fun token => ?_
    refine bind typeExpression fun type => ?_
    refine bind types fun arena => ?_
    split
    · exact pure _
    · exact bind (report (by rfl)) fun _ => pure _
  · exact pure _

theorem enumValue (members : List EnumMember) : Runs relation (enumValue members) := by
  refine bind (eat _) fun negative => ?_
  refine bind next fun token => ?_
  split
  · split
    · exact pure _
    · exact fail (by rfl)
  · refine ite (refuses _ _) ?_
    split
    · exact pure _
    · exact fail (by rfl)
  · exact refuses _ _

theorem checkBodyGoesOn (token : Token) : Runs relation (checkBodyGoesOn token) :=
  ite (refuses _ _) (pure _)

theorem enumMember (base : Primitive) (members : List EnumMember) (following : Int) :
    Runs relation (enumMember base members following) := by
  refine bind (expects _ _) fun name => ?_
  refine bind (eat _) fun assigned => ?_
  refine bindIf (enumValue members) (pure _) fun value => ?_
  refine reportIf (by rfl) ?_
  refine reportOr (by rfl) fun extended => ?_
  exact bind (eat _) fun _ => pure _

theorem enumRound (base : Primitive) (current : List EnumMember × Int) :
    Runs relation (enumRound base current) := by
  refine bind peek fun token => ?_
  refine ite (pure _) ?_
  refine bind (checkBodyGoesOn _) fun _ => ?_
  refine bind (enumMember _ _ _) fun ⟨extended, after, more⟩ => ?_
  exact ite (pure _) (pure _)

theorem enumMembers (base : Primitive) : Runs relation (enumMembers base) := loop (enumRound base)

theorem recordMember (declaration : String) :
    Runs relation (recordMember options declaration) := by
  refine bind peek fun token => ?_
  refine bind typeExpression fun type => ?_
  refine bind types fun arena => ?_
  split
  · exact fail (by rfl)
  · exact bind (expects _ _) fun _ => bind (expects _ _) fun _ => pure _

theorem bodyRound {item : Parse α} {faultOf? : List α → α → Option (Position × SourceFault)}
    (reads : Runs relation item)
    (checks : ∀ items found place fault, faultOf? items found = some (place, fault) →
      fault.OfBody) (items : List α) : Runs relation (bodyRound item faultOf? items) := by
  refine bind (eat _) fun closed => ?_
  refine ite (pure _) ?_
  refine bind peek fun token => ?_
  refine bind (checkBodyGoesOn _) fun _ => ?_
  refine bind reads.attempt fun result => ?_
  cases result with
  | none => exact bind recoverStatement fun _ => pure _
  | some found =>
      cases checked : faultOf? items found with
      | none => simpa only [checked] using pure _
      | some reason =>
          obtain ⟨place, fault⟩ := reason
          simpa only [checked] using
            bind (report (checks items found place fault checked)) fun _ => pure _

theorem bodyItems {item : Parse α} {faultOf? : List α → α → Option (Position × SourceFault)}
    (reads : Runs relation item)
    (checks : ∀ items found place fault, faultOf? items found = some (place, fault) →
      fault.OfBody) : Runs relation (bodyItems item faultOf?) :=
  loop (bodyRound reads checks)

/-- A member is refused with a fault of the body. -/
theorem ofBody_of_refusedMember {members : List Member} {member : Member} {place : Position}
    {fault : SourceFault}
    (refused : (if members.any fun known => known.name == member.name then
      some (member.place, repeatedMember member.name) else none) = some (place, fault)) :
    fault.OfBody := by
  split at refused
  · cases refused
    rfl
  · cases refused

theorem recordMembers (declaration : String) :
    Runs relation (recordMembers options declaration) :=
  bodyItems (recordMember declaration) fun _ _ _ _ => ofBody_of_refusedMember

theorem direction : Runs relation direction := by
  refine bind (expects _ _) fun _ => ?_
  refine bind next fun token => ?_
  split
  · exact bind (pure _) fun _ => bind (expects _ _) fun _ => pure _
  · exact bind (pure _) fun _ => bind (expects _ _) fun _ => pure _
  · exact bind (refuses _ _) fun _ => bind (expects _ _) fun _ => pure _

theorem checkInterfaceDirection (type : TypeId) (way : Direction) (place : Position) :
    Runs relation (checkInterfaceDirection type way place) := by
  refine bind types fun arena => ?_
  split
  · exact pure _
  · split
    · exact report (by rfl)
    · exact report (by rfl)
    · exact pure _

theorem parameter : Runs relation (parameter options) :=
  bind direction fun _ => bind typeExpression fun _ => bind (expects _ _) fun _ =>
    bind (checkInterfaceDirection _ _ _) fun _ => pure _

theorem parameters : Runs relation (parameters options) := by
  refine bind (eat _) fun closed => ?_
  refine ite (pure _) ?_
  apply loop
  intro known
  refine bind parameter fun found => ?_
  refine reportOr (by rfl) fun extended => ?_
  refine bind next fun token => ?_
  split
  · exact pure _
  · exact pure _
  · exact refuses _ _

theorem method (interfaceAttributes : Attributes) :
    Runs relation (method options interfaceAttributes) := by
  refine bind optionalAttributes fun ⟨found, place⟩ => ?_
  refine reportIf (by rfl) ?_
  refine bind (expects _ _) fun name => ?_
  refine bind (expects _ _) fun _ => ?_
  refine bind parameters fun all => ?_
  refine bind (expects _ _) fun _ => ?_
  apply ite
  · split
    · exact bind (report (by rfl)) fun _ => pure _
    · exact pure _
  · exact pure _

/-- A method is refused with a fault of the body. -/
theorem ofBody_of_refusedMethod {known : List Method} {found : Method} {place : Position}
    {fault : SourceFault}
    (refused : (if found.name == Method.versionName then
        some (found.place, reservedMethod Method.versionName)
      else if known.any fun earlier => earlier.name == found.name then
        some (found.place, repeatedMethod found.name)
      else none) = some (place, fault)) : fault.OfBody := by
  split at refused
  · cases refused
    rfl
  · split at refused
    · cases refused
      rfl
    · cases refused

theorem methods (interfaceAttributes : Attributes) :
    Runs relation (methods options interfaceAttributes) :=
  bodyItems (method interfaceAttributes) fun _ _ _ _ => ofBody_of_refusedMethod

end Admitted

section Noted

variable [Admits OfBody relation]

theorem intern {key : TypeKey} {node : TypeNode}
    (other : key.isComposite = true ∨ key.isNamed = true) (denotes : key.Denotes node) :
    Runs relation (intern key node) := fun _ => Admits.intern other denotes

/-- A type is declared in the namespace of the unit. -/
theorem declare {name : String} {node : TypeNode} {before : ParseState}
    (denotes : (TypeKey.named before.unit.namespaceId name).Denotes node) :
    relation before (stateAfter (declare name node) before) :=
  getBindAt (bindAt (Admits.intern (.inr rfl) denotes) fun _ =>
    bind (changes fun _ => Admits.note) fun _ => pure _)

theorem enumDeclaration (found : Attributes) (place : Position) :
    Runs relation (enumDeclaration options found place) := by
  refine bind (expects _ _) fun _ => ?_
  refine bind (checkTypeAttributes _ _ _) fun _ => ?_
  refine bind (expects _ _) fun name => ?_
  refine bind (checkNewName _ _) fun fresh => ?_
  refine bind enumBase fun base => ?_
  refine bind (expects _ _) fun _ => ?_
  refine bind (enumMembers base) fun members => ?_
  refine bind (expects _ _) fun _ => ?_
  refine bind (eat _) fun _ => ?_
  refine reportIf (by rfl) ?_
  exact ite (getBind fun _ => bindAt (declare ⟨rfl, rfl⟩) fun _ => pure _) (pure _)

theorem interfaceDeclaration (found : Attributes) :
    Runs relation (interfaceDeclaration options found) := by
  refine bind (expects _ _) fun keyword => ?_
  refine bind (expects _ _) fun name => ?_
  refine bind get fun state => ?_
  refine reportIf (by rfl) ?_
  refine reportIf (by rfl) ?_
  refine reportIf (by rfl) ?_
  refine bind (expects _ _) fun _ => ?_
  refine bind (methods found) fun declared => ?_
  refine bind (eat _) fun _ => ?_
  refine reportIf (by rfl) ?_
  exact ite (bind (intern (.inr rfl) ⟨rfl, rfl⟩) fun _ => changes fun _ => Admits.note) (pure _)

end Noted

section Filled

variable [AdmitsMembers OfBody relation]

theorem recordBody (declaration : String) (name : Token) (id : Option TypeId) :
    Runs relation (recordBody options declaration name id) := by
  refine bind (expects _ _) fun _ => ?_
  refine bind (recordMembers declaration) fun members => ?_
  refine bind (eat _) fun _ => ?_
  refine reportIf (by rfl) ?_
  split
  · exact changes fun _ => AdmitsMembers.amend (setMembers_outline _)
  · exact pure _

theorem recordBehindName (found : Attributes) (isUnion : Bool) (name : Token) :
    Runs relation (recordBehindName options found isUnion name) := by
  refine bind (checkNewName _ _) fun fresh => ?_
  refine getBind fun state => ?_
  cases fresh with
  | false => exact bind (pure none) (fun _ => recordBody _ _ _) state
  | true =>
      have declares {node : TypeNode}
          (denotes : (TypeKey.named state.unit.namespaceId name.text).Denotes node) :
          relation state (stateAfter (some <$> Parse.declare name.text node) state) :=
        bindAt (declare denotes) fun _ => pure _
      refine bindAt (declares ?_) fun _ => recordBody _ _ _
      split <;> exact ⟨rfl, rfl⟩

theorem recordDeclaration (found : Attributes) (place : Position) (isUnion : Bool) :
    Runs relation (recordDeclaration options found place isUnion) := by
  refine bind (expects _ _) fun _ => ?_
  refine bind (checkTypeAttributes _ _ _) fun _ => ?_
  refine bind (expects _ _) fun name => ?_
  exact reportIf (by rfl) (recordBehindName found isUnion name)

theorem declaration : Runs relation (declaration options) := by
  refine bind optionalAttributes fun ⟨found, place⟩ => ?_
  refine bind peek fun token => ?_
  have misplaced : Runs relation (do
      Parse.report token.place (.misplacedHeader token)
      let _ ← Parse.next
      Parse.recoverStatement) :=
    bind (report (by rfl)) fun _ => bind next fun _ => recoverStatement
  split
  · exact enumDeclaration _ _
  · exact recordDeclaration _ _ _
  · exact recordDeclaration _ _ _
  · exact interfaceDeclaration _
  · exact misplaced
  · exact misplaced
  · exact misplaced
  · exact refuses _ _

theorem declarationRound (current : Unit) : Runs relation (declarationRound options current) := by
  refine bind peek fun token => ?_
  refine ite (pure _) ?_
  refine bind declaration.attempt fun result => ?_
  exact ite (bind recoverDeclaration fun _ => pure _) (pure _)

theorem declarations : Runs relation (declarations options) := loop declarationRound

end Filled

end Body

section Header

open SourceFault

variable {sort : SourceFault → Prop}

theorem offPlace_unexpected (token : Token) (expected : String) :
    OffPlace (unexpectedFault token expected) := by
  intro misplaced
  unfold unexpectedFault
  split
  · split <;> nofun
  · nofun

theorem registerNamed (type : TypeId) : Runs (Moves sort) (registerNamed type) := by
  intro before
  cases named : namedKey? before.types type with
  | none =>
      have run : Parse.registerNamed type before = .ok () before := by
        simp only [Parse.registerNamed, Bind.bind, EStateM.bind, types_run, named]
        rfl
      rw [stateAfter_ok run]
  | some key =>
      have run : Parse.registerNamed type before =
          .ok () { before with unit := before.unit.register key type } := by
        simp only [Parse.registerNamed, Bind.bind, EStateM.bind, types_run, named]
        rfl
      rw [stateAfter_ok run]
      exact .single (.see named)

theorem seeUnit (imported : CompiledUnit) : Runs (Moves sort) (seeUnit imported) := by
  apply bind (forM registerNamed)
  intro _
  split
  · exact bind (moves fun _ => .amend markSerializable_outline) fun _ => registerNamed _
  · exact pure _

theorem importUnit (name : String) (place : Position) :
    Runs (Moves OffPlace) (importUnit name place) := by
  refine bind get fun state => ite (report nofun) ?_
  split
  · exact report nofun
  · exact bind (seeUnit _) fun _ => moves fun _ => .note

theorem importStatement : Runs (Moves OffPlace) importStatement :=
  bind (announcement offPlace_unexpected _ _ _) fun _ => importUnit _ _

theorem declareSequenceable (full : String) (place : Position) :
    Runs (Moves OffPlace) (declareSequenceable full place) := by
  unfold Parse.declareSequenceable
  split
  · exact report nofun
  · rename_i package name split
    refine getBind fun state => ?_
    split
    · exact report nofun state
    · -- The offer was found before the namespace was looked up, in a program with the same units.
      have seeks : Move OffPlace state { state with program :=
          { state.program with namespaces := (state.program.namespaces.intern package).2 } } := .seek
      generalize state.program.namespaces.intern package = found at seeks ⊢
      obtain ⟨namespaceId, namespaces⟩ := found
      apply ReflTransGen.trans (.single seeks)
      dsimp only
      cases shared : (state.program.find? full).bind fun id =>
          ((state.program.units[id]?.getD default).visibleType? (.named namespaceId name)).map
            fun type => (id, type) with
      | none => exact .single .setAside
      | some offer =>
          obtain ⟨id, found, offered⟩ := Option.bind_eq_some_iff.mp shared
          obtain ⟨type, visible, rfl⟩ := Option.map_eq_some_iff.mp offered
          obtain ⟨listed, -⟩ := unitAt_mem found
          exact (ReflTransGen.single (.share ⟨_, listed, visible⟩)).tail .note

theorem sequenceableStatement : Runs (Moves OffPlace) sequenceableStatement :=
  bind (announcement offPlace_unexpected _ _ _) fun _ => declareSequenceable _ _

end Header

end Moves

end Runs

end Parse

end DriverIdl
