import DriverIdl.Proofs.Parsing.Asking
import DriverIdl.Proofs.Parsing.Declaration
import DriverIdl.Proofs.Parsing.Moves

/-!
# What is left of the types that a size is asked for

A struct or union is declared without members and gets them once, when its body has been read; from
then on it stays as it is until the file ends.  So what contains what when a size is asked for is still
so at the end: a type that reaches a cycle then reaches it when the file is checked.
-/

namespace DriverIdl

open Relation

/-- The body has been read. -/
def RecordType.Filled (record : RecordType) : Prop := record.members ≠ []

namespace TypeArena

variable {kind : RecordType → Prop} {arena before after : TypeArena}

/-- The structs and unions of a kind stay what they are. -/
def Retains (kind : RecordType → Prop) (before after : TypeArena) : Prop :=
  ∀ id record, before.record? id = some record → kind record → after.record? id = some record

instance : IsPreorder TypeArena (Retains kind) where
  refl _ _ _ found _ := found
  trans _ _ _ first second id record found ofKind :=
    second id record (first id record found ofKind) ofKind

namespace Retains

theorem alloc (arena : TypeArena) (node : TypeNode) : arena.Retains kind (arena.alloc node).2 := by
  intro id record found _
  rw [record?_alloc_of_ne (Nat.ne_of_lt (lt_size_of_record? found)), found]

/-- A type of another kind may change. -/
theorem update {id : TypeId} {record : RecordType} (found : arena.record? id = some record)
    (other : ¬kind record) (change : TypeNode → TypeNode) :
    arena.Retains kind (arena.update id change) := by
  intro kept present isKept ofKind
  have different : kept ≠ id := by
    rintro rfl
    rw [found] at isKept
    cases isKept
    exact other ofKind
  rw [record?_update_of_ne different, isKept]

theorem contains (retains : before.Retains RecordType.Filled after) {outer inner : TypeId}
    (contains : before.Contains outer inner) : after.Contains outer inner := by
  obtain ⟨record, found, member, listed, isInner⟩ := contains
  exact ⟨record, retains outer record found (List.ne_nil_of_mem listed), member, listed, isInner⟩

theorem onCycle (retains : before.Retains RecordType.Filled after) {type : TypeId}
    (cycle : TransGen before.Contains type type) : TransGen after.Contains type type :=
  cycle.lift id fun _ _ => retains.contains

theorem reachesCycle (retains : before.Retains RecordType.Filled after) {type : TypeId}
    (reaches : ReachesCycle before.Contains type) : ReachesCycle after.Contains type := by
  obtain ⟨vertex, path, cycle⟩ := reaches
  exact ⟨vertex, path.lift id fun _ _ => retains.contains, retains.onCycle cycle⟩

end Retains

end TypeArena

namespace ParseState

/-- The structs and unions of a kind are at the later point what they were at the earlier one. -/
def Retains (kind : RecordType → Prop) (before after : ParseState) : Prop :=
  before.types.Retains kind after.types

/-- Only a body that is read changes a struct or union. -/
instance (kind : RecordType → Prop) : Admits SourceFault.OfBody (Retains kind) where
  refl state := refl_of (TypeArena.Retains kind) state.types
  trans _ _ _ first second := trans_of (TypeArena.Retains kind) first second
  take _ := refl_of (TypeArena.Retains kind) _
  report _ := refl_of (TypeArena.Retains kind) _
  intern {before key node} _ _ := by
    rw [Retains, interned, CompiledUnit.intern]
    cases before.unit.visibleType? key with
    | some known => exact refl_of (TypeArena.Retains kind) _
    | none => exact .alloc before.types node
  note := refl_of (TypeArena.Retains kind) _

end ParseState

namespace Asking

open Parse ParseState

variable {α β σ : Type} {before : ParseState}

/-- An asking production runs from a state as a production does.  What was filled before, and what was
filled when a size was asked for, is there when the run ends. -/
structure FollowsAt (before : ParseState) (asking : Asking α) (production : Parse α) : Prop where
  run : asking.run before = production before
  lasts : before.Retains RecordType.Filled (stateAfter production before)
  asked : ∀ question ∈ asking.asked before,
    question.arena.Retains RecordType.Filled (stateAfter production before).types

/-- An asking production follows a production from every state. -/
def Follows (asking : Asking α) (production : Parse α) : Prop :=
  ∀ before, FollowsAt before asking production

namespace FollowsAt

theorem lift {production : Parse α}
    (lasts : before.Retains RecordType.Filled (stateAfter production before)) :
    FollowsAt before (liftM production) production :=
  ⟨rfl, lasts, fun _ listed => absurd listed List.not_mem_nil⟩

theorem map {asking : Asking α} {production : Parse α} {change : α → β}
    (follows : FollowsAt before asking production) :
    FollowsAt before (change <$> asking) (change <$> production) := by
  have opened (mapped : Parse α) : (change <$> mapped) before = EStateM.map change mapped before := rfl
  have ends : stateAfter (change <$> production) before = stateAfter production before := by
    rw [stateAfter, stateAfter, opened, EStateM.map]
    cases production before <;> rfl
  refine ⟨?_, ends ▸ follows.lasts, ends ▸ follows.asked⟩
  change (change <$> asking.run) before = _
  rw [opened, opened, EStateM.map, EStateM.map, follows.run]

/-- The second part starts where a run of the first one ends. -/
theorem bind {first : Asking α} {second : α → Asking β} {production : Parse α} {rest : α → Parse β}
    (starts : FollowsAt before first production)
    (goesOn : ∀ value state, production before = .ok value state →
      FollowsAt state (second value) (rest value)) :
    FollowsAt before (first >>= second) (production >>= rest) := by
  have opened : (first >>= second).run before =
      EStateM.bind first.run (fun value => (second value).run) before := rfl
  have openedToo : (production >>= rest) before = EStateM.bind production rest before := rfl
  have listed : (first >>= second).asked before =
      first.asked before ++ askedBehind second (first.run before) := rfl
  rw [starts.run] at listed
  cases run : production before with
  | error fault state =>
      have ends : stateAfter (production >>= rest) before = state := stateAfter_bind_error run
      have endsToo := stateAfter_error run
      refine ⟨?_, ?_, ?_⟩
      · rw [opened, openedToo, EStateM.bind, EStateM.bind, starts.run, run]
      · rw [ends, ← endsToo]
        exact starts.lasts
      · rw [listed, run, askedBehind, List.append_nil, ends, ← endsToo]
        exact starts.asked
  | ok value state =>
      have follows := goesOn value state run
      have ends : stateAfter (production >>= rest) before = stateAfter (rest value) state :=
        stateAfter_bind run
      have endsToo := stateAfter_ok run
      refine ⟨?_, ?_, ?_⟩
      · rw [opened, openedToo, EStateM.bind, EStateM.bind, starts.run, run]
        exact follows.run
      · rw [ends]
        exact trans_of (ParseState.Retains _) (endsToo ▸ starts.lasts) follows.lasts
      · rw [listed, run, askedBehind, ends]
        intro question isAsked
        rcases List.mem_append.mp isAsked with early | late
        · exact trans_of (TypeArena.Retains _) (endsToo ▸ starts.asked question early) follows.lasts
        · exact follows.asked question late

theorem ite {condition : Prop} [Decidable condition] {asking other : Asking α}
    {production alternative : Parse α} (holds : FollowsAt before asking production)
    (fails : FollowsAt before other alternative) :
    FollowsAt before (if condition then asking else other)
      (if condition then production else alternative) := by
  split
  · exact holds
  · exact fails

end FollowsAt

namespace Follows

theorem lift {production : Parse α} (runs : Runs (ParseState.Retains RecordType.Filled) production) :
    Follows (liftM production) production := fun before => .lift (runs before)

theorem pure (value : α) : Follows (Pure.pure value) (Pure.pure value) :=
  fun before => ⟨rfl, refl_of (ParseState.Retains _) before, fun _ listed => absurd listed List.not_mem_nil⟩

theorem bind {first : Asking α} {second : α → Asking β} {production : Parse α} {rest : α → Parse β}
    (starts : Follows first production) (goesOn : ∀ value, Follows (second value) (rest value)) :
    Follows (first >>= second) (production >>= rest) :=
  fun before => (starts before).bind fun value state _ => goesOn value state

theorem ite {condition : Prop} [Decidable condition] {asking other : Asking α}
    {production alternative : Parse α} (holds : Follows asking production)
    (fails : Follows other alternative) :
    Follows (if condition then asking else other) (if condition then production else alternative) :=
  fun before => .ite (holds before) (fails before)

/-- A fault that is reported on a condition in front of a part. -/
theorem reportIf {condition : Prop} [Decidable condition] {place : Position} {fault : SourceFault}
    {rest : PUnit → Asking α} {production : PUnit → Parse α} (ofBody : fault.OfBody)
    (goesOn : Follows (rest ⟨⟩) (production ⟨⟩)) :
    Follows (if condition then liftM (report place fault) >>= rest else rest ⟨⟩)
      (if condition then report place fault >>= production else production ⟨⟩) :=
  ite (bind (lift (.report ofBody)) fun _ => goesOn) goesOn

/-- A fault that is reported on a condition, and a result either way. -/
theorem reportOr {condition : Prop} [Decidable condition] {place : Position} {fault : SourceFault}
    {faulty other : α} {rest : α → Asking β} {production : α → Parse β} (ofBody : fault.OfBody)
    (goesOn : ∀ value, Follows (rest value) (production value)) :
    Follows
      (if condition then liftM (report place fault) >>= fun _ => Pure.pure faulty >>= rest
        else Pure.pure other >>= rest)
      (if condition then report place fault >>= fun _ => Pure.pure faulty >>= production
        else Pure.pure other >>= production) :=
  ite (bind (lift (.report ofBody)) fun _ => bind (pure faulty) goesOn) (bind (pure other) goesOn)

theorem fixedSize? (element : TypeId) :
    Follows (fixedSize? element) (do return (← types).fixedSize? element) := by
  intro before
  refine ⟨rfl, Runs.bind .types (fun _ => .pure _) before, fun question listed => ?_⟩
  obtain rfl := List.mem_singleton.mp listed
  exact refl_of (TypeArena.Retains _) before.types

theorem attempt {asking : Asking α} {production : Parse α} (follows : Follows asking production) :
    Follows (attempt asking) (Parse.attempt production) := by
  intro before
  obtain ⟨result, run⟩ := attempt_eq production before
  have ends := stateAfter_ok run
  refine ⟨?_, ends ▸ (follows before).lasts, ends ▸ (follows before).asked⟩
  change Parse.attempt asking.run before = _
  rw [Parse.attempt, Parse.attempt, (follows before).run]

section Loop

variable {step : σ → Asking (σ ⊕ α)} {parseStep : σ → Parse (σ ⊕ α)}
  (each : ∀ current, Follows (step current) (parseStep current))

include each

theorem loopWithin (rounds : Nat) (current : σ) :
    Follows (loopWithin step rounds current) (Parse.loopWithin parseStep rounds current) := by
  induction rounds generalizing current with
  | zero => exact lift .leave
  | succ rounds ih =>
      apply bind (each current)
      intro result
      cases result with
      | inl next => exact ih next
      | inr value => exact pure value

theorem loop (start : σ) : Follows (loop step start) (Parse.loop parseStep start) := by
  have round (current : σ) : Follows (Asking.round step current) (Parse.round parseStep current) :=
    bind (lift (.changes fun _ => AdmitsTypes.take (List.suffix_refl _))) fun _ => each current
  exact bind (lift .get) fun _ => loopWithin round _ start

end Loop

section Types

variable {options : Options} {asking : Asking TypeId} {production : Parse TypeId}

/-- The size of the element is computed from the types as they stand when the element has been read. -/
theorem queueType_eq (production : Parse TypeId) (place : Position) :
    Parse.queueType production place = (do
      let _ ← expect .angleOpen "\"<\""
      let element ← Parse.elementType production
      let _ ← expect .angleClose "\">\""
      let size ← (do return (← types).fixedSize? element)
      if size.isNone then fail place (.queueElement ((← types).spelling element))
      intern (.queue element) (.queue element)) := by
  unfold Parse.queueType
  congr
  funext _
  congr
  funext element
  congr
  funext _
  funext state
  simp only [Bind.bind, EStateM.bind, types_run, Pure.pure, EStateM.pure]
  split <;> rfl

section Containers

variable (inner : Follows asking production)

include inner

theorem elementType : Follows (elementType asking) (Parse.elementType production) :=
  bind (lift .peek) fun _ => bind inner fun _ => bind (lift (.checkElement _ _)) fun _ => pure _

theorem listType : Follows (listType asking) (Parse.listType production) :=
  bind (lift (.expects _ _)) fun _ => bind (elementType inner) fun _ =>
    bind (lift (.expects _ _)) fun _ => lift (.compose rfl rfl)

theorem mapType : Follows (mapType asking) (Parse.mapType production) :=
  bind (lift (.expects _ _)) fun _ => bind (elementType inner) fun _ =>
    bind (lift (.expects _ _)) fun _ => bind (elementType inner) fun _ =>
      bind (lift (.expects _ _)) fun _ => lift (.compose rfl rfl)

theorem queueType (place : Position) :
    Follows (queueType asking place) (Parse.queueType production place) := by
  rw [queueType_eq]
  apply bind (lift (.expects _ _))
  intro _
  apply bind (elementType inner)
  intro element
  apply bind (lift (.expects _ _))
  intro _
  apply bind (fixedSize? element)
  intro size
  refine ite ?_ (lift (.compose rfl rfl))
  exact bind (lift .types) fun _ => bind (lift (.fail (by rfl))) fun _ => lift (.compose rfl rfl)

theorem baseType (token : Token) : Follows (baseType asking token) (Parse.baseType production token) := by
  have same : asking.run = production := funext fun before => (inner before).run
  unfold Asking.baseType
  split
  · rename_i isList
    rw [Parse.baseType, isList]
    exact listType inner
  · rename_i isMap
    rw [Parse.baseType, isMap]
    exact mapType inner
  · rename_i isQueue
    rw [Parse.baseType, isQueue]
    exact queueType inner _
  · rw [same]
    exact lift (.baseType (fun before => (inner before).lasts) token)

end Containers

theorem typeWithin (depth : Nat) :
    Follows (typeWithin options depth) (Parse.typeWithin options depth) := by
  induction depth with
  | zero => exact lift .leave
  | succ depth ih =>
      exact bind (lift .next) fun _ => bind (baseType ih _) fun _ =>
        bind (lift (.arraySuffix _ _)) fun _ => bind (lift (.checkSupport _ _)) fun _ => pure _

theorem typeExpression : Follows (typeExpression options) (Parse.typeExpression options) :=
  bind (lift .get) fun _ => typeWithin _

end Types

section Declarations

variable {options : Options}

theorem enumBase : Follows (enumBase options) (Parse.enumBase options) := by
  apply bind (lift (.eat _))
  intro taken
  apply ite _ (pure _)
  apply bind (lift .peek)
  intro token
  apply bind typeExpression
  intro type
  apply bind (lift .types)
  intro arena
  cases (arena.primitive? type).filter Primitive.isIntegral with
  | some base => exact pure base
  | none => exact bind (lift (.report (by rfl))) fun _ => pure _

theorem enumDeclaration (found : Attributes) (place : Position) :
    Follows (enumDeclaration options found place) (Parse.enumDeclaration options found place) := by
  apply bind (lift (.expects _ _))
  intro _
  apply bind (lift (.checkTypeAttributes _ _ _))
  intro _
  apply bind (lift (.expects _ _))
  intro name
  apply bind (lift (.checkNewName _ _))
  intro fresh
  apply bind enumBase
  intro base
  apply bind (lift (.expects _ _))
  intro _
  apply bind (lift (.enumMembers base))
  intro members
  apply bind (lift (.expects _ _))
  intro _
  apply bind (lift (.eat _))
  intro _
  apply reportIf (by rfl)
  apply ite _ (pure _)
  intro before
  apply (lift .get before).bind
  rintro _ _ ⟨⟩
  exact (FollowsAt.lift (Runs.declare ⟨rfl, rfl⟩)).bind fun _ state _ => pure _ state

theorem recordMember (declaration : String) :
    Follows (recordMember options declaration) (Parse.recordMember options declaration) := by
  apply bind (lift .peek)
  intro token
  apply bind typeExpression
  intro type
  apply bind (lift .types)
  intro arena
  cases arena.node type
  case interface => exact lift (.fail (by rfl))
  all_goals exact bind (lift (.expects _ _)) fun _ => bind (lift (.expects _ _)) fun _ => pure _

theorem bodyItems {item : Asking α} {production : Parse α}
    {faultOf? : List α → α → Option (Position × SourceFault)} (reads : Follows item production)
    (checks : ∀ items found place fault, faultOf? items found = some (place, fault) →
      fault.OfBody) :
    Follows (bodyItems item faultOf?) (Parse.bodyItems production faultOf?) := by
  apply loop
  intro items
  apply bind (lift (.eat _))
  intro closed
  apply ite (pure _)
  apply bind (lift .peek)
  intro token
  apply bind (lift (.checkBodyGoesOn _))
  intro _
  apply bind reads.attempt
  intro result
  cases result with
  | none => exact bind (lift .recoverStatement) fun _ => pure _
  | some found =>
      cases checked : faultOf? items found with
      | none => simpa only [checked] using pure _
      | some reason =>
          obtain ⟨place, fault⟩ := reason
          simpa only [checked] using
            bind (lift (.report (checks items found place fault checked))) fun _ => pure _

theorem recordMembers (declaration : String) :
    Follows (recordMembers options declaration) (Parse.recordMembers options declaration) :=
  bodyItems (recordMember declaration) fun _ _ _ _ => Runs.ofBody_of_refusedMember

/-- The state in which a struct or union has its members. -/
def filled (type : TypeId) (members : List Member) (state : ParseState) : ParseState :=
  { state with program :=
    { state.program with types := state.program.types.update type (setMembers members) } }

/-- The body of a struct or union that has no members yet.  Reading the body leaves it so until the
members are all there. -/
theorem recordBody {declaration : String} {name : Token} {id : Option TypeId}
    (unfilled : ∀ type ∈ id, ∃ record, before.types.record? type = some record ∧ ¬record.Filled) :
    FollowsAt before (recordBody options declaration name id)
      (Parse.recordBody options declaration name id) := by
  let Keeps := ParseState.Retains fun _ => True
  refine (lift (.expects _ _) before).bind fun _ opened openRun => ?_
  have keptOpen : Keeps before opened := (Runs.expects _ _).ok openRun
  refine (recordMembers declaration opened).bind fun members read readRun => ?_
  have keptRead : Keeps opened read := (Runs.recordMembers declaration).ok readRun
  refine (lift (.eat _) read).bind fun _ ended endRun => ?_
  have keptEnd : Keeps read ended := (Runs.eat _).ok endRun
  have kept := trans_of Keeps keptOpen (trans_of Keeps keptRead keptEnd)
  cases id with
  | none => exact reportIf (by rfl) (pure _) ended
  | some type =>
      obtain ⟨record, found, isUnfilled⟩ := unfilled type rfl
      have fills {state : ParseState} (kept : Keeps before state) :
          FollowsAt state (liftM (modify (filled type members) : Parse Unit)) (modify (filled type members)) :=
        .lift (.update (kept type record found trivial) isUnfilled _)
      refine .ite ((lift (.report (by rfl)) ended).bind fun _ state reportRun => ?_) (fills kept)
      have keptReport : Keeps ended state := (Runs.report (by rfl)).ok reportRun
      exact fills (trans_of Keeps kept keptReport)

/-- The type that was declared under a new name is what it was declared as. -/
theorem record?_of_declare {name : String} {node : TypeNode} {state after : ParseState}
    {result : Option TypeId}
    (hidden : state.unit.visibleType? (.named state.unit.namespaceId name) = none)
    (run : (some <$> declare name node : Parse (Option TypeId)) state = .ok result after) :
    ∀ type ∈ result, after.types.record? type = node.record? := by
  rcases intern_cases (.named state.unit.namespaceId name) node state with ⟨id, visible, -⟩
    | ⟨-, new⟩
  · rw [hidden] at visible
    cases visible
  · simp only [declare, Functor.map, EStateM.map, Bind.bind, EStateM.bind, get_run, new] at run
    cases run
    rintro _ ⟨⟩
    exact record?_withDefinition state name node

theorem recordDeclaration (found : Attributes) (place : Position) (isUnion : Bool) :
    Follows (recordDeclaration options found place isUnion)
      (Parse.recordDeclaration options found place isUnion) := by
  apply bind (lift (.expects _ _))
  intro _
  apply bind (lift (.checkTypeAttributes _ _ _))
  intro _
  apply bind (lift (.expects _ _))
  intro name
  apply reportIf (by rfl)
  intro before
  refine (lift (.checkNewName _ _) before).bind fun fresh state isNew => ?_
  refine (lift .get state).bind ?_
  rintro _ _ ⟨⟩
  cases fresh with
  | false => exact (pure none state).bind fun _ _ run => by cases run; exact recordBody nofun
  | true =>
      have hidden := visibleType?_of_checkNewName isNew
      refine (FollowsAt.map (.lift (Runs.declare ?_))).bind fun id declared run => recordBody ?_
      · split <;> exact ⟨rfl, rfl⟩
      · intro type isDeclared
        refine ⟨_, (record?_of_declare hidden run type isDeclared).trans (record?_ite isUnion), ?_⟩
        simp [RecordType.Filled]

end Declarations

section Interfaces

variable {options : Options}

theorem parameter : Follows (parameter options) (Parse.parameter options) :=
  bind (lift .direction) fun _ => bind typeExpression fun _ => bind (lift (.expects _ _)) fun _ =>
    bind (lift (.checkInterfaceDirection _ _ _)) fun _ => pure _

theorem parameters : Follows (parameters options) (Parse.parameters options) := by
  apply bind (lift (.eat _))
  intro closed
  apply ite (pure _)
  apply loop
  intro known
  apply bind parameter
  intro found
  apply reportOr (by rfl)
  intro extended
  apply bind (lift .next)
  intro token
  cases token.kind
  case comma | parenClose => exact pure _
  all_goals exact lift (.refuses _ _)

theorem method (interfaceAttributes : Attributes) :
    Follows (method options interfaceAttributes) (Parse.method options interfaceAttributes) := by
  apply bind (lift .optionalAttributes)
  rintro ⟨found, place⟩
  apply reportIf (by rfl)
  apply bind (lift (.expects _ _))
  intro name
  apply bind (lift (.expects _ _))
  intro _
  apply bind parameters
  intro all
  apply bind (lift (.expects _ _))
  intro _
  apply ite _ (pure _)
  cases all.find? Parameter.isOut with
  | none => exact pure _
  | some result => exact bind (lift (.report (by rfl))) fun _ => pure _

theorem methods (interfaceAttributes : Attributes) :
    Follows (methods options interfaceAttributes) (Parse.methods options interfaceAttributes) :=
  bodyItems (method interfaceAttributes) fun _ _ _ _ => Runs.ofBody_of_refusedMethod

theorem interfaceDeclaration (found : Attributes) :
    Follows (interfaceDeclaration options found) (Parse.interfaceDeclaration options found) := by
  apply bind (lift (.expects _ _))
  intro keyword
  apply bind (lift (.expects _ _))
  intro name
  apply bind (lift .get)
  intro state
  apply reportIf (by rfl)
  apply reportIf (by rfl)
  apply reportIf (by rfl)
  apply bind (lift (.expects _ _))
  intro _
  apply bind (methods found)
  intro declared
  apply bind (lift (.eat _))
  intro _
  apply reportIf (by rfl)
  exact ite (bind (lift (.intern (.inr rfl) ⟨rfl, rfl⟩)) fun _ =>
    lift (.changes fun _ => Admits.note)) (pure _)

end Interfaces

section File

variable {options : Options}

theorem declaration : Follows (declaration options) (Parse.declaration options) := by
  apply bind (lift .optionalAttributes)
  rintro ⟨found, place⟩
  apply bind (lift .peek)
  intro token
  cases token.kind
  case enum => exact enumDeclaration _ _
  case struct | union => exact recordDeclaration _ _ _
  case interface => exact interfaceDeclaration _
  case packageWord | importWord | sequenceable =>
    exact bind (lift (.report (by rfl))) fun _ => bind (lift .next) fun _ => lift .recoverStatement
  all_goals exact lift (.refuses _ _)

theorem declarations : Follows (declarations options) (Parse.declarations options) := by
  apply loop
  intro _
  apply bind (lift .peek)
  intro token
  apply ite (pure _)
  apply bind declaration.attempt
  intro result
  exact ite (bind (lift .recoverDeclaration) fun _ => pure _) (pure _)

end File

end Follows

/-- What stands behind a part that asks for nothing is asked for behind a run of that part. -/
theorem asked_lift_bind {production : Parse α} {rest : α → Asking β} {question : SizeQuestion}
    (isAsked : question ∈ (liftM production >>= rest).asked before) :
    ∃ value state, production before = .ok value state ∧ question ∈ (rest value).asked state := by
  have listed : (liftM production >>= rest).asked before =
      [] ++ askedBehind rest (production before) := rfl
  rw [listed, List.nil_append] at isAsked
  cases run : production before with
  | ok value state =>
      rw [run, askedBehind] at isAsked
      exact ⟨value, state, rfl, isAsked⟩
  | error fault state =>
      rw [run, askedBehind] at isAsked
      cases isAsked

/-- A file is read as it is without the questions. -/
theorem file_run (options : Options) : (file options).run = Parse.file options := by
  have same : (declarations options).run = Parse.declarations options :=
    funext fun before => (Follows.declarations before).run
  have opened : (file options).run = Parse.packageStatement options >>= fun _ =>
      Parse.headerStatements >>= fun _ => (declarations options).run := rfl
  rw [opened, same, Parse.file]

/-- What is filled when a file asks for a size is there when the file has been read. -/
theorem file_retains {options : Options} {question : SizeQuestion}
    (isAsked : question ∈ (file options).asked before) :
    question.arena.Retains RecordType.Filled (stateAfter (Parse.file options) before).types := by
  obtain ⟨_, packaged, packageRun, inHeader⟩ := asked_lift_bind isAsked
  obtain ⟨_, headed, headerRun, inBody⟩ := asked_lift_bind inHeader
  have ends : stateAfter (Parse.file options) before =
      stateAfter (Parse.declarations options) headed := by
    rw [Parse.file, stateAfter_bind packageRun, stateAfter_bind headerRun]
  rw [ends]
  exact (Follows.declarations headed).asked question inBody

end Asking

end DriverIdl
