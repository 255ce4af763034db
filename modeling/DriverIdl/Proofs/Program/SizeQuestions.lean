import DriverIdl.Proofs.Parsing.Following
import DriverIdl.Proofs.Program.Queues

/-!
# Sizes that are asked for too early

Types that contain themselves are refused when a file has been read, but the size of a queue's element is
asked for while it is being read.  The element may then contain itself, and the recursion over its
members comes to no end of its own.  This happens only in files that are refused, and only with types
that the file itself declares; every other size is found within as many levels as there are types.
-/

namespace DriverIdl

open Parse Relation

namespace TypeArena

/-- A type that reaches a cycle has no size, however deep its members are followed. -/
theorem fixedSizeWithin_of_reachesCycle {arena : TypeArena} {type : TypeId}
    (reaches : ReachesCycle arena.Contains type) (depth : Nat) :
    arena.fixedSizeWithin depth type = none := by
  induction depth generalizing type with
  | zero => rfl
  | succ depth ih =>
      obtain ⟨_, ⟨record, found, member, listed, rfl⟩, reachesToo⟩ := reaches.exists_successor
      by_contra sized
      obtain ⟨size, isSize⟩ := Option.ne_none_iff_exists'.mp sized
      have memberSized := isSome_of_member isSize found member listed
      rw [ih reachesToo] at memberSized
      cases memberSized

end TypeArena

namespace Program

variable {program : Program} {options : Options} {diagnostics : List Diagnostic} {path : Path}
  {source : String} {read : ParseState}

/-- Reading a file leaves the records of earlier files as they are, also if it is refused. -/
theorem keepsRecords_of_advances
    (advanced : ParseState.Advances program.types.size
      (ParseState.start program diagnostics path source) read) :
    program.types.KeepsRecords read.types := by
  have marks := fun id below => (advanced.nodes id below).imp_right And.right
  refine keepsRecords_of_nodes ⟨advanced.inside (Nat.le_refl _), fun id below => ?_⟩ marks
  rcases marks id below with same | marked
  · rw [same]
    rfl
  · rw [marked, markSerializable_outline]
    rfl

/-- While a file is read, sizes are asked for by the productions that read queues.  The size of a type
that reaches no cycle is found at every depth beyond the number of types, and one that reaches a cycle
has none at any depth.  Every type on a cycle is one of the file itself, and if the file is accepted no
size has been asked for that reaches a cycle. -/
theorem sizes_asked_while_reading {program : Program} (reachable : program.Reachable)
    (options : Options) (diagnostics : List Diagnostic) (path : Path) (source : String) :
    (Asking.file options).run = Parse.file options ∧
    ∀ question ∈ (Asking.file options).asked (ParseState.start program diagnostics path source),
      (¬ReachesCycle question.arena.Contains question.element →
        ∀ depth, question.arena.size < depth →
          question.arena.fixedSizeWithin depth question.element =
            question.arena.fixedSize? question.element) ∧
      (ReachesCycle question.arena.Contains question.element →
        ∀ depth, question.arena.fixedSizeWithin depth question.element = none) ∧
      (∀ type, TransGen question.arena.Contains type type → program.types.size ≤ type) ∧
      ((program.parseSource options diagnostics path source).accepted = true →
        ¬ReachesCycle question.arena.Contains question.element) := by
  refine ⟨Asking.file_run options, fun question isAsked => ?_⟩
  obtain ⟨result, run⟩ :=
    attempt_eq (file options) (ParseState.start program diagnostics path source)
  have retains := Asking.file_retains isAsked
  have wellFormed := reachable.wellFormed
  obtain ⟨advanced, ends⟩ := parseSource_cases_of_read wellFormed run
  refine ⟨fun offCycle depth enough => TypeArena.fixedSizeWithin_eq_fixedSize? offCycle enough,
    TypeArena.fixedSizeWithin_of_reachesCycle, fun type cycle => ?_, fun accepted reaches => ?_⟩
  · -- A cycle through an old type is still there at the end, so it was there at the start.
    by_contra outside
    have old := (keepsRecords_of_advances advanced).path wellFormed.types (Nat.lt_of_not_le outside)
      (retains.onCycle cycle)
    exact reachable.coherent.acyclic type old.1
  · rcases ends with rejects | accepts
    · rw [rejects.accepted] at accepted
      cases accepted
    · have acyclic := (accepts.coherent advanced wellFormed.types reachable.coherent).acyclic
      rw [accepts.types_eq] at acyclic
      exact acyclic.not_reachesCycle question.element (retains.reachesCycle reaches)

/-- The sizes that a file asks for when it is the first one. -/
def questionsOf (source : String) : List SizeQuestion :=
  (Asking.file {}).asked (ParseState.start {} [] ⟨"a/v1_0/Types.idl"⟩ source)

/-- What each question is about: the element, and the types of its members if it has any. -/
def asksAbout (questions : List SizeQuestion) : List (TypeId × Option (List TypeId)) :=
  questions.map fun question => (question.element,
    (question.arena.record? question.element).map fun record => record.members.map Member.type)

theorem exists_asked {source : String} {element : TypeId} {members : Option (List TypeId)}
    (asks : asksAbout (questionsOf source) = [(element, members)]) :
    ∃ question ∈ questionsOf source, question.element = element ∧
      (question.arena.record? question.element).map
        (fun record => record.members.map Member.type) = members := by
  have listed : (element, members) ∈ asksAbout (questionsOf source) := by simp [asks]
  obtain ⟨question, isAsked, same⟩ := List.mem_map.mp listed
  exact ⟨question, isAsked, congrArg Prod.fst same, congrArg Prod.snd same⟩

theorem plainQueue_asks : asksAbout (questionsOf plainQueueSource) = [(14, some [3])] := by
  decide +kernel

/-- The size of a plain struct is asked for, which reaches no cycle. -/
theorem plain_size_asked : (queueOutcome plainQueueSource).accepted = true ∧
    ∃ question ∈ questionsOf plainQueueSource, question.element = 14 ∧
      ¬ReachesCycle question.arena.Contains question.element := by
  obtain ⟨question, isAsked, isElement, -⟩ := exists_asked plainQueue_asks
  obtain ⟨-, questions⟩ :=
    sizes_asked_while_reading .empty {} [] ⟨"a/v1_0/Types.idl"⟩ plainQueueSource
  obtain ⟨-, -, -, offCycle⟩ := questions question isAsked
  exact ⟨plainQueueOutcome_spec.1, question, isAsked, isElement, offCycle plainQueueOutcome_spec.1⟩

/-- A file with a queue of a struct that contains itself. -/
def endlessQueueSource : String :=
  "package a.v1_0; struct A \x7b String s; A a; \x7d; struct B \x7b SharedMemQueue<A> q; \x7d;"

theorem endlessQueue_asks : asksAbout (questionsOf endlessQueueSource) = [(14, some [11, 14])] := by
  decide +kernel

/-- The first file of a run may ask for the size of a struct that contains itself. -/
theorem size_asked_of_endless_type : ({} : Program).Reachable ∧
    ∃ question ∈ questionsOf endlessQueueSource,
      ReachesCycle question.arena.Contains question.element := by
  obtain ⟨question, isAsked, isElement, members⟩ := exists_asked endlessQueue_asks
  refine ⟨.empty, question, isAsked, .of_onCycle (.single ?_)⟩
  obtain ⟨record, found, types⟩ := Option.map_eq_some_iff.mp members
  have listed : question.element ∈ record.members.map Member.type := by simp [types, isElement]
  obtain ⟨member, isMember, isOwn⟩ := List.mem_map.mp listed
  exact ⟨record, found, member, isMember, isOwn⟩

end Program

end DriverIdl
