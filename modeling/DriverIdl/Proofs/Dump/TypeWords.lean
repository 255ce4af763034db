import DriverIdl.Proofs.Dump.Names

/-!
# The words of types

`TypeWords` are the words by which a type is spelled: declared types by their short names, containers
by their elements.  If the types that are visible have different short names, each name denotes one of
them; what is visible grows while a file is read, and what holds of all of it at the end held before.
-/

namespace DriverIdl

/-- The words of a primitive type that can be written. -/
def Primitive.words : Primitive → List Word
  | .boolean => [(.boolean, "boolean")]
  | .byte => [(.byte, "byte")]
  | .short => [(.short, "short")]
  | .int => [(.int, "int")]
  | .long => [(.long, "long")]
  | .float => [(.float, "float")]
  | .double => [(.double, "double")]
  | .uchar => [(.unsigned, "unsigned"), (.char, "char")]
  | .ushort => [(.unsigned, "unsigned"), (.short, "short")]
  | .uint => [(.unsigned, "unsigned"), (.int, "int")]
  | .ulong => [(.unsigned, "unsigned"), (.long, "long")]
  | .string => [(.string, "String")]
  | .fileDescriptor => [(.fileDescriptor, "FileDescriptor")]
  | .void => []

/-- The words that spell a type in its shortest form. -/
inductive TypeWords (arena : TypeArena) : TypeId → List Word → Prop where
  | primitive {type : TypeId} {kind : Primitive} (node : arena.node type = .primitive kind)
      (written : kind ≠ .void) : TypeWords arena type kind.words
  | named {type : TypeId} {name : String} (node : (arena.node type).name? = some name)
      (isName : Text.IsName name) : TypeWords arena type [(.identifier, name)]
  | array {type element : TypeId} {words : List Word} (node : arena.node type = .array element)
      (inner : TypeWords arena element words) :
      TypeWords arena type (words ++ [(.bracketOpen, "["), (.bracketClose, "]")])
  | list {type element : TypeId} {words : List Word} (node : arena.node type = .list element)
      (inner : TypeWords arena element words) :
      TypeWords arena type
        ((.list, "List") :: (.angleOpen, "<") :: (words ++ [(.angleClose, ">")]))
  | map {type key value : TypeId} {words others : List Word} (node : arena.node type = .map key value)
      (keys : TypeWords arena key words) (values : TypeWords arena value others) :
      TypeWords arena type ((.map, "Map") :: (.angleOpen, "<") ::
        (words ++ (.comma, ",") :: (others ++ [(.angleClose, ">")])))
  | queue {type element : TypeId} {words : List Word} (node : arena.node type = .queue element)
      (inner : TypeWords arena element words) :
      TypeWords arena type
        ((.sharedMemQueue, "SharedMemQueue") :: (.angleOpen, "<") :: (words ++ [(.angleClose, ">")]))

/-- The words that a type may start with. -/
def typeStarts : List TokenKind :=
  [.boolean, .byte, .short, .int, .long, .float, .double, .unsigned, .string, .fileDescriptor, .list,
    .map, .sharedMemQueue, .identifier]

/-- What must not stand behind a type. -/
def typeStops : List TokenKind := [.dot, .bracketOpen]

/-- What is neither a struct nor a union nor an interface stays what it is. -/
theorem TypeArena.Extends.node_eq {before after : TypeArena} (grown : before.Extends after)
    {id : TypeId} {node : TypeNode} (inside : id < before.size) (isNode : before.node id = node)
    (plain : node.record? = none ∧ node.unmarked? = none) : after.node id = node := by
  have same := grown.outline_eq id inside
  rw [isNode] at same
  have kept : node.outline = node := by
    cases node <;> first | rfl | obtain ⟨⟨⟩, ⟨⟩⟩ := plain
  rw [kept] at same
  generalize after.node id = new at same ⊢
  cases new <;> subst same <;> first | rfl | obtain ⟨⟨⟩, ⟨⟩⟩ := plain

namespace TypeWords

variable {arena after : TypeArena} {type : TypeId} {words : List Word}

theorem head (spelled : TypeWords arena type words) :
    ∃ first others, words = first :: others ∧ first.1 ∈ typeStarts := by
  induction spelled with
  | @primitive _ kind _ written =>
      cases kind with
      | void => exact absurd rfl written
      | _ => exact ⟨_, _, rfl, by decide⟩
  | array _ _ ih =>
      obtain ⟨first, others, rfl, starts⟩ := ih
      exact ⟨first, _, rfl, starts⟩
  | _ => exact ⟨_, _, rfl, by simp [typeStarts]⟩

/-- Primitive types have no other words. -/
theorem eq_words (spelled : TypeWords arena type words) {kind : Primitive}
    (node : arena.node type = .primitive kind) : words = kind.words := by
  cases spelled with
  | primitive same written =>
      rw [node, TypeNode.primitive.injEq] at same
      rw [same]
  | named same _ => simp [node, TypeNode.name?] at same
  | array same _ | list same _ | map same _ _ | queue same _ => simp [node] at same

theorem inside (spelled : TypeWords arena type words) : type < arena.size := by
  by_contra outside
  have nothing := TypeArena.node_of_size_le (Nat.le_of_not_lt outside)
  cases spelled with
  | primitive node written =>
      rw [nothing, TypeNode.primitive.injEq] at node
      exact written node.symm
  | named node _ => simp [nothing, TypeNode.name?] at node
  | array node _ | list node _ | map node _ _ | queue node _ => simp [nothing] at node

theorem extend (spelled : TypeWords arena type words) (grown : arena.Extends after) :
    TypeWords after type words := by
  induction spelled with
  | primitive node written =>
      exact .primitive (grown.node_eq (primitive node written).inside node ⟨rfl, rfl⟩) written
  | named node isName =>
      have same := TypeNode.name?_congr (grown.outline_eq _ (named node isName).inside)
      exact .named (same.trans node) isName
  | array node inner ih =>
      exact .array (grown.node_eq (array node inner).inside node ⟨rfl, rfl⟩) ih
  | list node inner ih =>
      exact .list (grown.node_eq (list node inner).inside node ⟨rfl, rfl⟩) ih
  | queue node inner ih =>
      exact .queue (grown.node_eq (queue node inner).inside node ⟨rfl, rfl⟩) ih
  | map node keys values ihKeys ihValues =>
      exact .map (grown.node_eq (map node keys values).inside node ⟨rfl, rfl⟩) ihKeys ihValues

end TypeWords

/-- No two declared types of a table share a short name, unless they share their namespace too. -/
def ShortNamesApart (table : List (TypeKey × TypeId)) : Prop :=
  ∀ first second name type other, (.named first name, type) ∈ table →
    (.named second name, other) ∈ table → first = second

/-- The namespace and the short name of a declared type. -/
def TypeKey.declared? : TypeKey → Option (NamespaceId × String)
  | .named namespaceId name => some (namespaceId, name)
  | _ => none

theorem mem_declared {table : List (TypeKey × TypeId)} {namespaceId : NamespaceId} {name : String} :
    (namespaceId, name) ∈ table.filterMap (fun entry => entry.1.declared?) ↔
      ∃ type, (.named namespaceId name, type) ∈ table := by
  rw [List.mem_filterMap]
  constructor
  · rintro ⟨⟨key, type⟩, listed, isDeclared⟩
    cases key with
    | named other short =>
        obtain ⟨rfl, rfl⟩ : other = namespaceId ∧ short = name := by
          simpa [TypeKey.declared?] using isDeclared
        exact ⟨type, listed⟩
    | _ => cases isDeclared
  · rintro ⟨type, listed⟩
    exact ⟨_, listed, rfl⟩

instance (table : List (TypeKey × TypeId)) : Decidable (ShortNamesApart table) :=
  decidable_of_iff
    (∀ first ∈ table.filterMap (fun entry => entry.1.declared?),
      ∀ second ∈ table.filterMap (fun entry => entry.1.declared?),
        first.2 = second.2 → first.1 = second.1) (by
      constructor
      · intro apart first second name type other listed listedToo
        exact apart (first, name) (mem_declared.mpr ⟨type, listed⟩) (second, name)
          (mem_declared.mpr ⟨other, listedToo⟩) rfl
      · rintro apart ⟨first, name⟩ isFirst ⟨second, _⟩ isSecond rfl
        obtain ⟨type, listed⟩ := mem_declared.mp isFirst
        obtain ⟨other, listedToo⟩ := mem_declared.mp isSecond
        exact apart first second name type other listed listedToo)

namespace ParseState

variable {before middle after : ParseState}

/-- What holds wherever a file of types is read: tables are coherent, identifiers are names, and no
interface is ahead. -/
structure Orderly (state : ParseState) : Prop where
  coherent : state.Coherent
  named : ∀ token ∈ state.tokens, token.Named
  noInterface : ∀ token ∈ state.tokens, token.kind ≠ .interface

/-- What held earlier if it holds now: nothing was wrong, and short names tell types apart. -/
structure Tidy (state : ParseState) : Prop where
  clean : state.errors = 0
  apart : ShortNamesApart state.unit.table

/-- A later state still knows an earlier one, and has at least its errors. -/
structure Leads (before after : ParseState) : Prop where
  recalls : before.Coherent → Recalls before after ∧ after.Coherent
  errors_le : before.errors ≤ after.errors

theorem Move.errors_le {sort : SourceFault → Prop} (move : Move sort before after) :
    before.errors ≤ after.errors := by
  cases move with
  | report => exact Nat.le_succ _
  | _ => exact Nat.le_refl _

namespace Leads

theorem trans (first : Leads before middle) (second : Leads middle after) : Leads before after where
  recalls coherent :=
    have ⟨early, between⟩ := first.recalls coherent
    have ⟨late, last⟩ := second.recalls between
    ⟨early.trans late, last⟩
  errors_le := Nat.le_trans first.errors_le second.errors_le

theorem of_moves {sort : SourceFault → Prop} (moves : Moves sort before after) :
    Leads before after where
  recalls := moves.coherent
  errors_le := by
    induction moves with
    | refl => exact Nat.le_refl _
    | tail _ move ih => exact Nat.le_trans ih move.errors_le

theorem counted (state : ParseState) : Leads state state.counted := by
  have moves : Moves SourceFault.OfBody state state.counted := .single (.take (List.suffix_refl _))
  exact .of_moves moves

/-- A production that makes moves leads from the state before it to the one behind it. -/
theorem of_run {α : Type} {production : Parse α} {value : α}
    (run : production before = .ok value after)
    (runs : Parse.Runs (Moves SourceFault.OfBody) production) : Leads before after :=
  of_moves (runs.ok run)

/-- The rounds of a loop lead to its end. -/
theorem of_went {σ α : Type} {step : σ → Parse (σ ⊕ α)} {current : σ} {value : α}
    (went : Parse.Went step value after before current)
    (runs : ∀ current, Parse.Runs (Moves SourceFault.OfBody) (step current)) : Leads before after := by
  induction went with
  | done run => exact (counted _).trans (.of_run run (runs _))
  | more run later ih => exact ((counted _).trans (.of_run run (runs _))).trans ih

theorem orderly (leads : Leads before after) (orderly : before.Orderly) : after.Orderly :=
  have ⟨recalls, coherent⟩ := leads.recalls orderly.coherent
  { coherent := coherent
    named := fun token listed => orderly.named token (recalls.tokens.subset listed)
    noInterface := fun token listed => orderly.noInterface token (recalls.tokens.subset listed) }

theorem tidy (leads : Leads before after) (coherent : before.Coherent) (tidy : after.Tidy) :
    before.Tidy where
  clean := Nat.le_zero.mp (tidy.clean ▸ leads.errors_le)
  apart first second name type other listed listedToo :=
    have known := (leads.recalls coherent).1.table.subset
    tidy.apart first second name type other (known listed) (known listedToo)

theorem types (leads : Leads before after) (coherent : before.Coherent) :
    before.types.Extends after.types :=
  (leads.recalls coherent).1.types

end Leads

end ParseState

/-- The types that are known already are the same at the later point. -/
structure TypeArena.Keeps (before after : TypeArena) : Prop where
  size_le : before.size ≤ after.size
  node_eq : ∀ id < before.size, after.node id = before.node id

instance : IsPreorder TypeArena TypeArena.Keeps where
  refl _ := ⟨Nat.le_refl _, fun _ _ => rfl⟩
  trans _ _ _ first second :=
    ⟨Nat.le_trans first.size_le second.size_le, fun id inside =>
      (second.node_eq id (Nat.lt_of_lt_of_le inside first.size_le)).trans (first.node_eq id inside)⟩

theorem TypeArena.Keeps.alloc (arena : TypeArena) (node : TypeNode) :
    arena.Keeps (arena.alloc node).2 :=
  ⟨by simp, fun _ inside => node_alloc_of_lt inside⟩

/-- The types of an earlier state are the same in a later one. -/
def ParseState.Keeps (before after : ParseState) : Prop := before.types.Keeps after.types

/-- Only the members of a type that is being declared are given to it later. -/
instance : ParseState.Admits SourceFault.OfBody ParseState.Keeps where
  refl state := refl_of TypeArena.Keeps state.types
  trans _ _ _ first second := trans_of TypeArena.Keeps first second
  take _ := refl_of TypeArena.Keeps _
  report _ := refl_of TypeArena.Keeps _
  intern {before key node} _ _ := by
    rw [ParseState.Keeps, ParseState.interned, CompiledUnit.intern]
    cases before.unit.visibleType? key with
    | some known => exact refl_of TypeArena.Keeps _
    | none => exact .alloc before.types node
  note := refl_of TypeArena.Keeps _

/-- The unit differs in the containers that it sees. -/
structure ParseState.KeepsUnit (before after : ParseState) : Prop where
  unit_eq : after.unit = { before.unit with table := after.unit.table }
  named : ∀ namespaceId name, after.unit.visibleType? (.named namespaceId name) =
    before.unit.visibleType? (.named namespaceId name)

/-- Reading types adds containers to what the unit sees. -/
instance : ParseState.AdmitsTypes SourceFault.OfBody ParseState.KeepsUnit where
  refl _ := ⟨rfl, fun _ _ => rfl⟩
  trans _ _ _ first second :=
    ⟨by rw [second.unit_eq, first.unit_eq], fun _ _ => (second.named _ _).trans (first.named _ _)⟩
  take _ := ⟨rfl, fun _ _ => rfl⟩
  report _ := ⟨rfl, fun _ _ => rfl⟩
  compose {before key node} composite _ := by
    cases visible : before.unit.visibleType? key with
    | some known =>
        simp only [ParseState.interned, CompiledUnit.intern, visible]
        exact ⟨rfl, fun _ _ => rfl⟩
    | none =>
        simp only [ParseState.interned, CompiledUnit.intern, visible]
        refine ⟨rfl, fun namespaceId name => ?_⟩
        have different : (TypeKey.named namespaceId name == key) = false := by
          rw [beq_eq_false_iff_ne]
          rintro rfl
          cases composite
        simp only [CompiledUnit.visibleType?, List.lookup_append, List.lookup_cons, different]
        simp

namespace CompiledUnit

variable {unit : CompiledUnit} {namespaces : NamespaceTree} {name : String} {type : TypeId}

/-- The type of an entry whose key ends in a short name. -/
def shortMatch? (name : String) (entry : TypeKey × TypeId) : Option TypeId :=
  match entry.1 with
  | .named _ short => if short == name then some entry.2 else none
  | _ => none

theorem lookup?_eq (unit : CompiledUnit) (namespaces : NamespaceTree) (name : String) :
    unit.lookup? namespaces name =
      match Package.splitFullName? name with
      | some (package, short) => (namespaces.find? package).bind fun id =>
          unit.visibleType? (.named id short)
      | none => (unit.visibleType? (.named unit.namespaceId name)).or
          (unit.table.findSome? (shortMatch? name)) := by
  rw [lookup?]
  cases Package.splitFullName? name with
  | some parts => rfl
  | none => cases unit.visibleType? (.named unit.namespaceId name) <;> rfl

/-- The first type with a short name is the one that its full name denotes. -/
theorem lookup_of_findSome? {table : List (TypeKey × TypeId)}
    (found : table.findSome? (shortMatch? name) = some type) :
    ∃ namespaceId, table.lookup (.named namespaceId name) = some type := by
  induction table with
  | nil => cases found
  | cons entry rest ih =>
      obtain ⟨key, id⟩ := entry
      rw [List.findSome?_cons] at found
      cases isMatch : shortMatch? name (key, id) with
      | some other =>
          obtain rfl : other = type := by simpa [isMatch] using found
          cases key with
          | named namespaceId short =>
              obtain ⟨rfl, rfl⟩ : short = name ∧ id = other := by simpa [shortMatch?] using isMatch
              exact ⟨namespaceId, by simp⟩
          | _ => cases isMatch
      | none =>
          obtain ⟨namespaceId, later⟩ := ih (by simpa [isMatch] using found)
          refine ⟨namespaceId, ?_⟩
          have different : (TypeKey.named namespaceId name == key) = false := by
            rw [beq_eq_false_iff_ne]
            rintro rfl
            simp [shortMatch?] at isMatch
          rw [List.lookup_cons, different, later]

/-- What a name denotes is seen under a short name, the last word of the name. -/
theorem visible_of_lookup? {words : List Word} (spelled : NameWords name words)
    (found : unit.lookup? namespaces name = some type) :
    ∃ namespaceId short, Text.IsName short ∧
      unit.visibleType? (.named namespaceId short) = some type := by
  rw [lookup?_eq] at found
  rcases spelled.cases_split with ⟨isName, alone⟩ | ⟨package, short, isName, split⟩
  · simp only [alone, Option.or_eq_some_iff] at found
    rcases found with own | ⟨-, other⟩
    · exact ⟨_, name, isName, own⟩
    · obtain ⟨namespaceId, visible⟩ := lookup_of_findSome? other
      exact ⟨namespaceId, name, isName, visible⟩
  · simp only [split, Option.bind_eq_some_iff] at found
    obtain ⟨namespaceId, -, visible⟩ := found
    exact ⟨namespaceId, short, isName, visible⟩

/-- A short name denotes a type that is seen under it, if that is the only one. -/
theorem lookup?_of_visible {namespaceId : NamespaceId} (isName : Text.IsName name)
    (visible : unit.visibleType? (.named namespaceId name) = some type)
    (only : ∀ other id, unit.visibleType? (.named other name) = some id → other = namespaceId) :
    unit.lookup? namespaces name = some type := by
  rw [lookup?_eq]
  rcases (NameWords.single isName).cases_split with ⟨-, alone⟩ | ⟨package, short, -, split⟩
  · simp only [alone]
    cases own : unit.visibleType? (.named unit.namespaceId name) with
    | some id =>
        obtain rfl := only _ _ own
        rw [← own, visible, Option.some_or]
    | none =>
        rw [Option.none_or]
        cases found : unit.table.findSome? (shortMatch? name) with
        | some id =>
            obtain ⟨other, isVisible⟩ := lookup_of_findSome? found
            obtain rfl := only other id isVisible
            rw [← visible]
            exact isVisible.symm
        | none =>
            have listed := mem_table_of_visibleType? visible
            simpa [shortMatch?] using List.findSome?_eq_none_iff.mp found _ listed
  · have undotted := isName.isWord.undotted
    have whole := Package.splitFullName?_eq_some split
    refine absurd ?_ undotted
    rw [← whole]
    simp [Package.fullName]

end CompiledUnit

end DriverIdl
