import DriverIdl.Proofs.Parsing.Repetition

/-!
# Interning is by shape

At every point of a file the table of the unit tells each type by its key and each key by its type.
A type expression therefore denotes one type throughout a file: reading its words again answers the
same type and adds nothing.
-/

namespace DriverIdl

open Parse

/-- The table of the unit tells each type by its shape. -/
structure ParseState.ByShape (state : ParseState) : Prop where
  /-- An entry stands for a type of the arena with its key. -/
  denotes : ∀ entry ∈ state.unit.table,
    entry.2 < state.types.size ∧ entry.1.Denotes (state.types.node entry.2)
  /-- No two entries share a key or a type. -/
  distinct : state.unit.table.Pairwise fun first second =>
    first.1 ≠ second.1 ∧ first.2 ≠ second.2
  /-- Two types of one shape are one. -/
  unique : ∀ key : TypeKey, ∀ first ∈ state.unit.table, ∀ second ∈ state.unit.table,
    key.Denotes (state.types.node first.2) → key.Denotes (state.types.node second.2) →
      first = second

theorem ParseState.Coherent.byShape {state : ParseState} (coherent : state.Coherent) :
    state.ByShape where
  denotes := coherent.table.sound
  distinct := coherent.table.pairwise
  unique _ _ listed _ listedToo := coherent.table.eq_of_denotes listed listedToo

theorem ParseState.ByShape.congr {before after : ParseState} (byShape : before.ByShape)
    (table : after.unit.table = before.unit.table) (types : after.types = before.types) :
    after.ByShape where
  denotes := by rw [table, types]; exact byShape.denotes
  distinct := by rw [table]; exact byShape.distinct
  unique := by rw [table, types]; exact byShape.unique

/-- An expression was read between two points, and its words stand again at a third one, in front of
`rest`. -/
structure ParseState.SpellsAgain (before middle again : ParseState) (expression copy rest : List Token) :
    Prop where
  first : before.tokens = expression ++ middle.tokens
  second : again.tokens = copy ++ rest
  words : copy.map Token.word = expression.map Token.word
  noQueue : ∀ token ∈ expression, token.kind ≠ .sharedMemQueue
  /-- What stands behind goes on with a bracket or a dot only if that was so the first time. -/
  stops : ∀ kind, kind = .bracketOpen ∨ kind = .dot → rest.head?.map Token.kind = some kind →
    middle.tokens.head?.map Token.kind = some kind
  /-- No type of a short name of the expression became visible in between. -/
  undisturbed : ∀ name ∈ shortNames expression, middle.Undisturbed again name

/-- A file goes from move to move, to the end of its package statement and on to its own; tables tell
types by their shape at every point, also once the unit is finished; and a type expression without
queues answers its type again and adds nothing, wherever its words stand again later. -/
theorem interning_is_by_shape {program : Program} (reachable : program.Reachable) (options : Options)
    (diagnostics : List Diagnostic) (path : Path) (source : String) :
    let start := ParseState.start program diagnostics path source
    let entered := stateAfter (packageStatement options) start
    (start.FileMoves entered ∧
      ParseState.Moves (fun _ => True) entered (stateAfter (file options) start)) ∧
    (∀ state, start.FileMoves state → state.ByShape) ∧
    (stateAfter finishUnit (stateAfter (file options) start)).ByShape ∧
    ∀ before middle again expression copy rest type, start.FileMoves before →
      typeExpression options before = .ok type middle →
      ParseState.Moves (fun _ => True) middle again →
      before.SpellsAgain middle again expression copy rest →
      ∃ later, typeExpression options again = .ok type later ∧ SameButTokens again later ∧
        later.tokens = rest := by
  intro start entered
  have coherent : start.Coherent := ParseState.coherent_start reachable diagnostics path source
  obtain ⟨enters, goesOn⟩ := Runs.file options start
  have read : (stateAfter (file options) start).ByShape :=
    (goesOn.coherent (enters.coherent coherent)).2.byShape
  refine ⟨⟨enters, goesOn⟩, fun state moves => (moves.coherent coherent).byShape, ?_, ?_⟩
  · obtain ⟨table, types⟩ := Runs.finishUnit (stateAfter (file options) start)
    exact read.congr table types
  · intro before middle again expression copy rest type moves run later spelled
    have coherentBefore := moves.coherent coherent
    have repeats : Repeats middle rest (again.tokens.length + 1) True before again
        (typeWithin options (before.tokens.length + 1))
        (typeWithin options (again.tokens.length + 1)) Eq Repeats.FitType := .typeWithin options _ _ _ _ _
    have composes := repeats.composes coherentBefore
    rw [stateAfter_ok (show typeWithin options (before.tokens.length + 1) before =
      EStateM.Result.ok type middle from run)] at composes
    have coherentMiddle := composes.coherent
    obtain ⟨_, final, runToo, same, done, rfl, -⟩ :=
      repeats.repeats trivial coherentBefore type middle run (.refl coherentMiddle)
        { recalls := (later.coherent coherentMiddle).1
          stops := spelled.stops
          copied := ⟨expression, copy, spelled.first, spelled.second, spelled.words, spelled.noQueue,
            spelled.undisturbed⟩ }
        (by omega)
    exact ⟨final, runToo, same, done.tokens_eq⟩

/-- A file in which one type is spelled twice. -/
def twoLists : ParseState := ParseState.start {} [] ⟨"T.idl"⟩ "List<int[]> a List<int[]> b"

/-- The state behind the first type. -/
def behindList : ParseState := stateAfter (typeExpression {}) twoLists

/-- The state in front of the second type. -/
def beforeList : ParseState := { behindList with tokens := behindList.tokens.drop 1 }

/-- The first spelling adds two types, and the second answers the list that they make. -/
theorem interning_is_by_shape_twoLists :
    typeExpression {} twoLists = .ok 15 behindList ∧ behindList.types.size = 16 ∧
      ∃ later, typeExpression {} beforeList = .ok 15 later ∧ SameButTokens beforeList later ∧
        later.tokens = behindList.tokens.drop 7 := by
  have run : typeExpression {} twoLists = .ok 15 behindList := by
    have answers : (match typeExpression {} twoLists with
        | .ok type _ => some type
        | .error _ _ => none) = some 15 := by decide +kernel
    cases outcome : typeExpression {} twoLists with
    | error fault state => simp [outcome] at answers
    | ok type state =>
        rw [outcome] at answers
        rw [behindList, stateAfter_ok outcome, Option.some.inj answers]
  have size : behindList.types.size = 16 := by decide +kernel
  have goesOn : (behindList.tokens.drop 7).head?.map Token.kind = some .identifier := by decide +kernel
  have unnamed : shortNames (twoLists.tokens.take 6) = [] := by decide +kernel
  have spelled : twoLists.SpellsAgain behindList beforeList (twoLists.tokens.take 6)
      (beforeList.tokens.take 6) (behindList.tokens.drop 7) :=
    { first := by decide +kernel
      second := by decide +kernel
      words := by decide +kernel
      noQueue := by decide +kernel
      stops := by
        intro kind isKind ahead
        rw [goesOn] at ahead
        cases ahead
        simp at isKind
      undisturbed := by simp [unnamed] }
  obtain ⟨-, -, -, again⟩ := interning_is_by_shape .empty {} [] ⟨"T.idl"⟩ "List<int[]> a List<int[]> b"
  obtain ⟨later, runToo, same, tokens⟩ := again twoLists behindList beforeList _ _ _ 15 .refl run
    (.single (.take (List.drop_suffix 1 _))) spelled
  exact ⟨run, size, later, runToo, same, tokens⟩

end DriverIdl
