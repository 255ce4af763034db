import DriverIdl.Proofs.Grammar.Soundness
import DriverIdl.Proofs.Program.Accounting

/-!
# Other ways to recover

The productions that go on behind a broken part, with the way they do it left open: `Recovery`.
With the standard way they are the productions of the language.  A run without a fault never
recovers, so it is the same run with any other way: `Agrees`.
-/

namespace DriverIdl

open Parse

/-- How to go on behind a broken statement, and behind a broken declaration. -/
structure Recovery where
  statement : Parse Unit
  declaration : Parse Unit

namespace Recovery

/-- The way of the language. -/
def standard : Recovery := ⟨recoverStatement, recoverDeclaration⟩

variable (recovery : Recovery) {α : Type}

/-- One round over a body: its brace or one item. -/
def bodyRound (item : Parse α) (faultOf? : List α → α → Option (Position × SourceFault))
    (items : List α) : Parse (List α ⊕ List α) := do
  if ← eat .braceClose then return .inr items
  checkBodyGoesOn (← peek)
  match ← attempt item with
  | none =>
    recovery.statement
    return .inl items
  | some found =>
    match faultOf? items found with
    | some (place, fault) =>
      report place fault
      return .inl items
    | none => return .inl (items ++ [found])

def bodyItems (item : Parse α) (faultOf? : List α → α → Option (Position × SourceFault)) :
    Parse (List α) :=
  loop (recovery.bodyRound item faultOf?) []

def recordMembers (options : Options) (declaration : String) : Parse (List Member) :=
  recovery.bodyItems (recordMember options declaration) fun members member =>
    if members.any fun known => known.name == member.name then
      some (member.place, .repeatedMember member.name)
    else none

def recordBody (options : Options) (declaration : String) (name : Token) (id : Option TypeId) :
    Parse Unit := do
  let _ ← expect .braceOpen "\"\x7b\""
  let members ← recovery.recordMembers options declaration
  let _ ← eat .semicolon
  if members.isEmpty then report name.place (.emptyRecord declaration name.text)
  if let some type := id then
    modify fun state =>
      { state with program :=
        { state.program with types := state.program.types.update type (setMembers members) } }

def recordDeclaration (options : Options) (found : Attributes) (attributesPlace : Position)
    (isUnion : Bool) : Parse Unit := do
  let declaration := if isUnion then "union" else "struct"
  let _ ← expect (if isUnion then .union else .struct) declaration
  checkTypeAttributes declaration found attributesPlace
  let name ← expect .identifier "a type name"
  if isUnion && options.language == some .java then
    report name.place (.support (.unionInJava name.text))
  let fresh ← checkNewName name.text name.place
  let unit := (← get).unit
  let record : RecordType :=
    ⟨name.text, unit.namespaceId, unit.name, [], found, name.place⟩
  let id ←
    if fresh then
      some <$> declare name.text (if isUnion then .union record else .struct record)
    else pure none
  recovery.recordBody options declaration name id

def methods (options : Options) (interfaceAttributes : Attributes) : Parse (List Method) :=
  recovery.bodyItems (method options interfaceAttributes) fun known found =>
    if found.name == Method.versionName then
      some (found.place, .reservedMethod Method.versionName)
    else if known.any fun earlier => earlier.name == found.name then
      some (found.place, .repeatedMethod found.name)
    else none

def interfaceDeclaration (options : Options) (found : Attributes) : Parse Unit := do
  let keyword ← expect .interface "\"interface\""
  let name ← expect .identifier "an interface name"
  let unit := (← get).unit
  let accepted := unit.interface.isNone
  if !accepted then report keyword.place .secondInterface
  if name.text != unit.name then report name.place (.interfaceFile name.text)
  if found.callback && options.language == some .java then
    report name.place (.support (.callbackInJava name.text))
  let _ ← expect .braceOpen "\"\x7b\""
  let declared ← recovery.methods options found
  let _ ← eat .semicolon
  if declared.isEmpty then report name.place (.emptyInterface name.text)
  if accepted then
    let id ← intern (.named unit.namespaceId name.text)
      (.interface ⟨name.text, unit.namespaceId, unit.name, found,
        declared ++ [Method.version name.place], false, name.place⟩)
    modify fun state => { state with unit := { state.unit with interface := some id } }

def declarationOf (options : Options) : Parse Unit := do
  let (found, attributesPlace) ← optionalAttributes
  let token ← peek
  match token.kind with
  | .enum => enumDeclaration options found attributesPlace
  | .struct => recovery.recordDeclaration options found attributesPlace false
  | .union => recovery.recordDeclaration options found attributesPlace true
  | .interface => recovery.interfaceDeclaration options found
  | .packageWord | .importWord | .sequenceable =>
    report token.place (.misplacedHeader token)
    let _ ← next
    recovery.statement
  | _ => unexpected token "a declaration"

def headerStatements : Parse Unit :=
  loop (fun (_ : Unit) => do
    let statement ← match (← peek).kind with
      | .importWord => pure (some importStatement)
      | .sequenceable => pure (some sequenceableStatement)
      | _ => pure none
    match statement with
    | none => return .inr ()
    | some production =>
      if (← attempt production).isNone then recovery.statement
      return .inl ()) ()

def declarations (options : Options) : Parse Unit :=
  loop (fun (_ : Unit) => do
    if (← peek).kind = .eof then return .inr ()
    if (← attempt (recovery.declarationOf options)).isNone then recovery.declaration
    return .inl ()) ()

def file (options : Options) : Parse Unit := do
  packageStatement options
  recovery.headerStatements
  recovery.declarations options

/-- Parses a source text into a program. -/
def parseSource (options : Options) (program : Program) (diagnostics : List Diagnostic)
    (path : Path) (source : String) : ParseOutcome :=
  let start := ParseState.start program diagnostics path source
  let production : Parse Bool := do
    let _ ← attempt (recovery.file options)
    finishUnit
  let (accepted, state) := match production start with
    | .ok accepted state => (accepted, state)
    | .error _ state => (false, state)
  let kept :=
    if accepted then state.program
    else { state.program with types := state.program.types.truncate program.types.size }
  ⟨accepted, kept, state.diagnostics⟩

/-- The standard way is the one of the language. -/
theorem parseSource_standard {options : Options} {program : Program}
    {diagnostics : List Diagnostic} {path : Path} {source : String} :
    standard.parseSource options program diagnostics path source =
      program.parseSource options diagnostics path source := rfl

end Recovery

namespace Parse

open ParseState

variable {α β σ : Type} {before : ParseState}

/-- Where a production reports no fault, the other one runs alike. -/
abbrev Agrees (before : ParseState) (production other : Parse α) : Prop :=
  Spells before production fun value after _ => other before = .ok value after

namespace Agrees

theorem refl {production : Parse α} {post : α → ParseState → List TokenKind → Prop}
    (spells : Spells before production post) : Agrees before production production :=
  spells.imp fun _ _ _ run _ _ => run

theorem pure {value : α} : Agrees before (Pure.pure value) (Pure.pure value) :=
  Spells.pure rfl

theorem report {place : Position} {fault : SourceFault} :
    Agrees before (report place fault) (report place fault) :=
  Spells.report

theorem map {production : Parse α} {change : α → β}
    {post : α → ParseState → List TokenKind → Prop} (spells : Spells before production post) :
    Agrees before (change <$> production) (change <$> production) := by
  have mapped : Spells before (change <$> production) fun _ _ _ => True :=
    .map (spells.imp fun _ _ _ _ _ _ => trivial)
  exact refl mapped

theorem bind {first firstToo : Parse α} {second secondToo : α → Parse β}
    (starts : Agrees before first firstToo)
    (goesOn : ∀ value state, Agrees state (second value) (secondToo value)) :
    Agrees before (first >>= second) (firstToo >>= secondToo) := by
  apply Spells.bind starts
  intro value state _
  apply (goesOn value state).imp
  intro result after more _ _ secondRun _ firstRun
  change EStateM.bind firstToo secondToo before = _
  rw [EStateM.bind, firstRun]
  exact secondRun

theorem bindOk {first : Parse α} {second secondToo : α → Parse β} {value : α}
    (run : first before = .ok value before)
    (goesOn : Agrees before (second value) (secondToo value)) :
    Agrees before (first >>= second) (first >>= secondToo) := by
  apply Spells.bindOk run
  apply goesOn.imp
  intro result after more _ _ secondRun
  change EStateM.bind first secondToo before = _
  rw [EStateM.bind, run]
  exact secondRun

theorem ite {condition : Prop} [Decidable condition] {yes yesToo no noToo : Parse α}
    (holds : Agrees before yes yesToo) (fails : Agrees before no noToo) :
    Agrees before (if condition then yes else no) (if condition then yesToo else noToo) := by
  split
  · exact holds
  · exact fails

/-- A fault that is reported on a condition in front of a part. -/
theorem skipReport {condition : Prop} [Decidable condition] {place : Position}
    {fault : SourceFault} {rest restToo : PUnit → Parse α}
    (goesOn : ∀ state, Agrees state (rest ⟨⟩) (restToo ⟨⟩)) :
    Agrees before (if condition then Parse.report place fault >>= rest else rest ⟨⟩)
      (if condition then Parse.report place fault >>= restToo else restToo ⟨⟩) :=
  ite (bind report fun _ => goesOn) (goesOn before)

/-- Two productions whose failures are caught differ only behind a failure, and that is a fault. -/
theorem bindAttempt {production other : Parse α} {rest restToo : Option α → Parse β}
    (reads : Agrees before production other)
    (recovers : ∀ state, Spells state (rest none) fun _ _ _ => True)
    (goesOn : ∀ value state, Agrees state (rest (some value)) (restToo (some value))) :
    Agrees before (attempt production >>= rest) (attempt other >>= restToo) := by
  apply Spells.bind (Spells.attempt reads)
  intro result state _
  cases result with
  | none =>
      -- The failure has left a fault, so nothing has to be alike.
      apply (recovers state).imp
      rintro _ _ _ - - - _ ⟨_, impossible, -⟩
      cases impossible
  | some found =>
      apply (goesOn found state).imp
      rintro result after more - - restRun _ ⟨value, isFound, otherRun⟩
      obtain rfl : found = value := Option.some.inj isFound
      have caught : attempt other before = .ok (some found) state := by
        simp only [attempt, otherRun]
      change EStateM.bind (attempt other) restToo before = _
      rw [EStateM.bind, caught]
      exact restRun

/-- Rounds that agree run alike until the first fault. -/
theorem loopWithin {step stepToo : σ → Parse (σ ⊕ α)}
    (round : ∀ current state, Agrees state (step current) (stepToo current)) {rounds : Nat}
    {current : σ} {state after : ParseState} {value : α}
    (run : loopWithin step rounds current state = .ok value after) :
    state.errors ≤ after.errors ∧ (after.errors = state.errors →
      Parse.loopWithin stepToo rounds current state = .ok value after) := by
  induction rounds generalizing current state with
  | zero => cases run
  | succ rounds ih =>
      simp only [Parse.loopWithin, Bind.bind, EStateM.bind] at run ⊢
      cases first : step current state with
      | error fault middle => simp [first] at run
      | ok result middle =>
          rw [first] at run
          obtain ⟨grown, alike⟩ := (round current state).ok first
          cases result with
          | inr found =>
              obtain ⟨rfl, rfl⟩ : found = value ∧ middle = after := by
                simpa [Pure.pure, EStateM.pure] using run
              refine ⟨grown, fun clean => ?_⟩
              obtain ⟨-, -, firstToo⟩ := alike clean
              rw [firstToo]
              rfl
          | inl next =>
              obtain ⟨grownToo, rest⟩ := ih run
              refine ⟨Nat.le_trans grown grownToo, fun clean => ?_⟩
              obtain ⟨-, -, firstToo⟩ := alike (by omega)
              rw [firstToo]
              exact rest (by omega)

theorem loop {step stepToo : σ → Parse (σ ⊕ α)} {start : σ}
    {post : α → ParseState → List TokenKind → Prop} (spells : Spells before (loop step start) post)
    (round : ∀ current state, Agrees state (step current) (stepToo current)) :
    Agrees before (Parse.loop step start) (Parse.loop stepToo start) :=
  spells.imp fun _ _ _ run clean _ =>
    (loopWithin (fun current state => (round current state.counted).counted) run).2 clean

variable {recovery : Recovery} {options : Options}

theorem bodyRound {item : Parse α}
    {faultOf? : List α → α → Option (Position × SourceFault)} {part : TokenLanguage}
    (reads : ∀ state, Derives state item part) (items : List α) :
    Agrees before (Parse.bodyRound item faultOf? items)
      (recovery.bodyRound item faultOf? items) := by
  apply bind (refl (Spells.eat (by decide)))
  intro closed entered
  apply ite pure
  · apply bindOk (peek_run entered)
    apply bind (refl (Spells.checkBodyGoesOn _))
    intro _ checked
    apply bindAttempt (refl (reads checked))
    · intro state
      apply Spells.bind Spells.recoverStatement
      intro _ recovered _
      exact Spells.pure fun _ _ => trivial
    · intro found state
      cases fault : faultOf? items found with
      | none => simpa only [fault] using pure
      | some reason => simpa only [fault] using bind report fun _ _ => pure

theorem bodyItems {item : Parse α}
    {faultOf? : List α → α → Option (Position × SourceFault)} {part : TokenLanguage}
    (notEmpty : [] ∉ part) (reads : ∀ state, Derives state item part) :
    Agrees before (Parse.bodyItems item faultOf?) (recovery.bodyItems item faultOf?) :=
  loop (Spells.bodyItems notEmpty reads) fun items _ => bodyRound reads items

theorem recordBody (declaration : String) (name : Token) (id : Option TypeId) :
    Agrees before (Parse.recordBody options declaration name id)
      (recovery.recordBody options declaration name id) := by
  apply bind (refl (Spells.expect (by decide)))
  intro _ opened
  apply bind (bodyItems Spells.nil_notMem_recordMember fun _ =>
    Spells.recordMember declaration)
  intro members read
  apply bind (refl (Spells.eat (by decide)))
  intro _ closed
  apply skipReport
  intro state
  cases id with
  | none => exact pure
  | some type => exact refl (Spells.modify rfl rfl)

theorem recordDeclaration (found : Attributes) (place : Position) (isUnion : Bool) :
    Agrees before (Parse.recordDeclaration options found place isUnion)
      (recovery.recordDeclaration options found place isUnion) := by
  apply bind (refl (Spells.expect (by split <;> decide)))
  intro _ worded
  apply bind (refl (Spells.checkTypeAttributes _ found place))
  intro _ checked
  apply bind (refl (Spells.expect (by decide)))
  intro name named
  apply skipReport
  intro reported
  apply bind (refl (Spells.checkNewName name.text name.place))
  intro fresh state
  apply bindOk (get_run state)
  apply ite
  · apply bind (map Spells.declare)
    intro id declared
    exact recordBody _ name id
  · apply bindOk rfl
    exact recordBody _ name none

theorem interfaceDeclaration (found : Attributes) :
    Agrees before (Parse.interfaceDeclaration options found)
      (recovery.interfaceDeclaration options found) := by
  apply bind (refl (Spells.expect (by decide)))
  intro keyword worded
  apply bind (refl (Spells.expect (by decide)))
  intro name named
  apply bindOk (get_run named)
  apply skipReport
  intro first
  apply skipReport
  intro own
  apply skipReport
  intro expressed
  apply bind (refl (Spells.expect (by decide)))
  intro _ opened
  apply bind (bodyItems Spells.nil_notMem_method fun _ => Spells.method found)
  intro declared read
  apply bind (refl (Spells.eat (by decide)))
  intro _ ended
  apply skipReport
  intro state
  apply ite _ pure
  apply bind (refl Spells.intern)
  intro id interned
  exact refl (Spells.modify rfl rfl)

theorem declarationOf :
    Agrees before (Parse.declaration options) (recovery.declarationOf options) := by
  apply bind (refl Spells.optionalAttributes)
  rintro ⟨found, place⟩ attributed
  apply bindOk (peek_run attributed)
  have misplaced {rest : Parse Unit} : Agrees attributed (do
      Parse.report (ahead attributed).place (.misplacedHeader (ahead attributed))
      let _ ← next
      recoverStatement) rest := by
    -- A fault is reported first, so nothing has to be alike behind it.
    apply Spells.bindReport
    intro reported
    apply Spells.bind Spells.next
    intro _ skipped _
    exact Spells.recoverStatement.imp fun _ _ _ _ _ _ _ _ => trivial
  cases kind : (ahead attributed).kind
  case enum => exact refl (Spells.enumDeclaration Grammar.integerType found place)
  case struct => exact recordDeclaration found place false
  case union => exact recordDeclaration found place true
  case interface => exact interfaceDeclaration found
  case packageWord | importWord | sequenceable => exact misplaced
  all_goals exact Spells.unexpected

/-- A round that reads one part of the file. -/
theorem part {production other recover recoverToo : Parse Unit}
    (reads : Agrees before production other)
    (recovers : ∀ state, Spells state recover fun _ _ _ => True) :
    Agrees before
      (do
        if (← attempt production).isNone then recover
        return (.inl () : Unit ⊕ Unit))
      (do
        if (← attempt other).isNone then recoverToo
        return (.inl () : Unit ⊕ Unit)) := by
  apply bindAttempt reads
  · intro state
    apply Spells.bind (recovers state)
    intro _ recovered _
    exact Spells.pure fun _ _ => trivial
  · exact fun _ _ => pure

theorem headerStatements : Agrees before Parse.headerStatements recovery.headerStatements := by
  have recovers (state : ParseState) : Spells state recoverStatement fun _ _ _ => True :=
    Spells.recoverStatement
  apply loop Spells.headerStatements
  rintro - state
  apply bindOk (peek_run state)
  cases kind : (ahead state).kind
  case importWord =>
    exact bindOk rfl (part (refl Spells.importStatement) recovers)
  case sequenceable =>
    exact bindOk rfl (part (refl Spells.sequenceableStatement) recovers)
  all_goals exact bindOk rfl pure

theorem declarations :
    Agrees before (Parse.declarations options) (recovery.declarations options) := by
  apply loop (Spells.declarations Grammar.integerType)
  rintro - state
  apply bindOk (peek_run state)
  exact ite pure (part declarationOf fun state => @Spells.recoverDeclaration state)

theorem file : Agrees before (Parse.file options) (recovery.file options) := by
  apply bind (refl Spells.packageStatement)
  intro _ packaged
  apply bind headerStatements
  intro _ read
  exact declarations

end Agrees

end Parse

/-- A text that is accepted is parsed alike in all ways to recover: none of them is ever used. -/
theorem Recovery.parseSource_of_accepted (recovery : Recovery) {options : Options}
    {program : Program} {diagnostics : List Diagnostic} {path : Path} {source : String}
    (accepted : (program.parseSource options diagnostics path source).accepted = true) :
    recovery.parseSource options program diagnostics path source =
      program.parseSource options diagnostics path source := by
  obtain ⟨read, early, late, course⟩ :=
    Program.exists_course program options diagnostics path source
  obtain ⟨result, run⟩ := course.reads
  have clean : read.errors = 0 := course.clean.mpr (course.accepted.mp accepted).1
  have agrees : Agrees (ParseState.start program diagnostics path source) (Parse.file options)
      (recovery.file options) := .file
  obtain ⟨-, -, value, rfl, fileRun⟩ := (agrees.attempt.ok run).2 clean
  have recovered : attempt (recovery.file options)
      (ParseState.start program diagnostics path source) = .ok (some value) read := by
    simp only [attempt, fileRun]
  obtain ⟨verdict, state, finished⟩ : ∃ verdict state, finishUnit read = .ok verdict state :=
    ⟨_, course.finishes⟩
  rw [Program.parseSource_of_finished run finished]
  simp only [Recovery.parseSource, Bind.bind, EStateM.bind, recovered, finished, ParseState.types]

end DriverIdl
