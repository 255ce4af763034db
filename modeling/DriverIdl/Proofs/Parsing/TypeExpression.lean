import DriverIdl.Proofs.Parsing.ArenaChange
import DriverIdl.Proofs.Parsing.Runs

/-!
# What reading a type builds

Reading a type takes no word that starts a declaration.  It adds composite types to the arena and to
the table of the unit, and leaves all else as it was: `Reads`.  The type it answers is one of the
arena, has passed the support check, and encloses every type that was added.
-/

namespace DriverIdl

open Relation

namespace TypeArena

variable {options : Options} {mark : Nat} {arena before after : TypeArena} {type : TypeId}

/-- Composite types bring no names and no members. -/
theorem Addable.of_unnamed {node : TypeNode} (unnamed : node.name? = none)
    (made : ∀ primitive, node ≠ .primitive primitive)
    (own : ∀ part ∈ node.parts, arena.OwnFrom mark part)
    (usable : ∀ part ∈ node.checkedParts, Usable options arena part)
    (elements : ∀ element ∈ node.elements, arena.interface? element = none)
    (plain : ∀ element, node = .queue element → (arena.fixedSize? element).isSome) :
    Addable options mark arena node where
  made := made
  own := own
  integral declared isEnum := by simp [isEnum, TypeNode.name?] at unnamed
  usable := usable
  elements := elements
  plain := plain
  unfilled record found := by cases node <;> simp_all [TypeNode.name?, TypeNode.record?]
  words name listed := by cases node <;> simp_all [TypeNode.name?, TypeNode.names]

theorem Extends.interface?_eq_none (grown : before.Extends after) (inside : type < before.size)
    (absent : before.interface? type = none) : after.interface? type = none := by
  have same := grown.unmarked?_eq inside
  rwa [TypeArena.unmarked?_eq, TypeArena.unmarked?_eq, absent, Option.map_none,
    Option.map_eq_none_iff] at same

end TypeArena

/-- A composite key stands for one type only. -/
theorem TypeKey.Denotes.unique {key : TypeKey} {first second : TypeNode}
    (composite : key.isNamed = false) (ofFirst : key.Denotes first)
    (ofSecond : key.Denotes second) : first = second := by
  cases key with
  | named namespaceId name => cases composite
  | _ => exact Eq.trans ofFirst (Eq.symm ofSecond)

/-- A key that is not that of a primitive type stands for none. -/
theorem TypeKey.Denotes.ne_primitive {key : TypeKey} {node : TypeNode} (denotes : key.Denotes node)
    (other : key.isComposite = true ∨ key.isNamed = true) (primitive : Primitive) :
    node ≠ .primitive primitive := by
  rintro rfl
  cases key <;> simp_all [isComposite, isNamed, Denotes, TypeNode.name?]

/-- What has such a key is not `void`. -/
theorem TypeArena.Sound.ne_void {arena : TypeArena} (sound : arena.Sound) {key : TypeKey}
    {type : TypeId} (denotes : key.Denotes (arena.node type))
    (other : key.isComposite = true ∨ key.isNamed = true) : type ≠ Primitive.void.id := by
  rintro rfl
  exact denotes.ne_primitive other .void (sound.node_primitive .void)

/-- A type that a unit can refer to by itself: a primitive one, or one that its table shows. -/
def CompiledUnit.Sees (unit : CompiledUnit) (type : TypeId) : Prop :=
  (∃ primitive : Primitive, type = primitive.id) ∨ ∃ key, (key, type) ∈ unit.table

theorem CompiledUnit.Sees.mono {before after : CompiledUnit} {type : TypeId}
    (sees : before.Sees type) (grown : before.table ⊆ after.table) : after.Sees type :=
  sees.imp_right fun ⟨key, listed⟩ => ⟨key, grown listed⟩

namespace ParseState

/-- What types refer to and did not refer to before, the unit sees. -/
def Refers (before after : ParseState) : Prop :=
  ∀ id, ∀ part ∈ (after.types.node id).parts,
    part ∈ (before.types.node id).parts ∨ after.unit.Sees part

namespace Refers

variable {before middle after : ParseState}

theorem of_types (same : after.types = before.types) : before.Refers after :=
  fun _ _ listed => .inl (same ▸ listed)

theorem trans (first : before.Refers middle) (second : middle.Refers after)
    (grown : middle.unit.table ⊆ after.unit.table) : before.Refers after := by
  intro id part listed
  rcases second id part listed with earlier | sees
  · exact (first id part earlier).imp_right fun sees => sees.mono grown
  · exact .inr sees

/-- A new type refers to types that the unit sees. -/
theorem alloc {node : TypeNode} (types : after.types = (before.types.alloc node).2)
    (sees : ∀ part ∈ node.parts, after.unit.Sees part) : before.Refers after := by
  intro id part listed
  rw [types] at listed
  rcases Nat.lt_trichotomy id before.types.size with inside | rfl | outside
  · rw [TypeArena.node_alloc_of_lt inside] at listed
    exact .inl listed
  · rw [TypeArena.node_alloc_size] at listed
    exact .inr (sees part listed)
  · rw [TypeArena.node_of_size_le (by rw [TypeArena.size_alloc]; omega)] at listed
    cases listed

/-- A type that is changed refers to what it did, or to types that the unit sees. -/
theorem update {changed : TypeId} {change : TypeNode → TypeNode}
    (types : after.types = before.types.update changed change)
    (sees : ∀ part ∈ (change (before.types.node changed)).parts,
      part ∈ (before.types.node changed).parts ∨ after.unit.Sees part) : before.Refers after := by
  intro id part listed
  rw [types] at listed
  by_cases same : id = changed
  · subst same
    rcases Nat.lt_or_ge id before.types.size with inside | outside
    · rw [TypeArena.node_update_self inside] at listed
      exact sees part listed
    · rw [TypeArena.node_of_size_le (by rwa [TypeArena.size_update])] at listed
      cases listed
  · rw [TypeArena.node_update_of_ne same] at listed
    exact .inl listed

end Refers

/-- Composite types were added, and nothing else changed but the tokens ahead. -/
structure Grows (options : Options) (mark : Nat) (before after : ParseState) : Prop where
  program : after.program = { before.program with types := after.types }
  unit : after.unit = { before.unit with table := after.unit.table }
  sequenceables : after.sequenceables = before.sequenceables
  table : ∃ added, after.unit.table = before.unit.table ++ added ∧
    ∀ entry ∈ added, entry.1.isNamed = false
  types : before.types.Extends after.types
  records : ∀ id, after.types.record? id = before.types.record? id
  interfaces : ∀ id, after.types.unmarked? id = before.types.unmarked? id
  undeclared : before.types.AddsDeclared after.types fun _ => False
  refers : before.Refers after
  builds : before.types.Builds options mark after.types

namespace Grows

variable {options : Options} {mark : Nat} {before middle after : ParseState}

theorem refl (state : ParseState) : Grows options mark state state where
  program := rfl
  unit := rfl
  sequenceables := rfl
  table := ⟨[], by simp, by simp⟩
  types := .refl _
  records _ := rfl
  interfaces _ := rfl
  undeclared := .refl _
  refers := .of_types rfl
  builds := .refl

theorem table_subset (grows : Grows options mark before after) :
    before.unit.table ⊆ after.unit.table := by
  obtain ⟨added, table, -⟩ := grows.table
  exact table ▸ List.subset_append_left _ _

theorem trans (first : Grows options mark before middle) (second : Grows options mark middle after) :
    Grows options mark before after where
  program := by rw [second.program, first.program]
  unit := by rw [second.unit, first.unit]
  sequenceables := second.sequenceables.trans first.sequenceables
  table := by
    obtain ⟨early, earlyTable, earlyKeys⟩ := first.table
    obtain ⟨late, lateTable, lateKeys⟩ := second.table
    refine ⟨early ++ late, by rw [lateTable, earlyTable, List.append_assoc], ?_⟩
    intro entry listed
    exact (List.mem_append.mp listed).elim (earlyKeys entry) (lateKeys entry)
  types := first.types.trans second.types
  records id := (second.records id).trans (first.records id)
  interfaces id := (second.interfaces id).trans (first.interfaces id)
  undeclared := first.undeclared.trans second.undeclared (fun _ => id) fun _ => id
  refers := first.refers.trans second.refers second.table_subset
  builds := first.builds.trans second.builds

theorem of_sameButTokens (same : Parse.SameButTokens before after) : Grows options mark before after := by
  rw [Parse.SameButTokens] at same
  rw [same]
  exact { refl before with }

theorem namespaceId_eq (grows : Grows options mark before after) :
    after.unit.namespaceId = before.unit.namespaceId := by
  rw [grows.unit]

/-- A declared type is visible if and only if it was before. -/
theorem visibleType?_named (grows : Grows options mark before after) (id : NamespaceId) (name : String) :
    after.unit.visibleType? (.named id name) = before.unit.visibleType? (.named id name) := by
  obtain ⟨added, table, keys⟩ := grows.table
  have absent : added.lookup (.named id name) = none := by
    apply List.lookup_eq_none_iff.mpr
    intro entry listed
    have unnamed := keys entry listed
    cases found : entry.1 <;> simp_all [TypeKey.isNamed]
  rw [CompiledUnit.visibleType?, CompiledUnit.visibleType?, table, List.lookup_append, absent,
    Option.or_none]

end Grows

/-- What a run without an error inside a declaration does to the state. -/
structure Reads (options : Options) (mark : Nat) (before after : ParseState) : Prop extends
    Grows options mark before after where
  taken : ∃ taken, before.tokens = taken ++ after.tokens ∧
    ∀ token ∈ taken, token.kind.startsDeclaration = false

namespace Reads

variable {options : Options} {mark : Nat} {before middle after : ParseState}

theorem refl (state : ParseState) : Reads options mark state state :=
  ⟨.refl state, [], rfl, by simp⟩

theorem trans (first : Reads options mark before middle) (second : Reads options mark middle after) :
    Reads options mark before after := by
  obtain ⟨early, earlySplit, earlyPlain⟩ := first.taken
  obtain ⟨late, lateSplit, latePlain⟩ := second.taken
  refine ⟨first.toGrows.trans second.toGrows, early ++ late, ?_, ?_⟩
  · rw [earlySplit, lateSplit, List.append_assoc]
  · intro token listed
    exact (List.mem_append.mp listed).elim (earlyPlain token) (latePlain token)

/-- Tokens are taken that start nothing. -/
theorem of_sameButTokens (taken : List Token) (same : Parse.SameButTokens before after)
    (split : before.tokens = taken ++ after.tokens)
    (plain : ∀ token ∈ taken, token.kind.startsDeclaration = false) :
    Reads options mark before after :=
  ⟨.of_sameButTokens same, taken, split, plain⟩

theorem of_takes {token : Token} (takes : Parse.Takes before token after)
    (plain : token.kind.startsDeclaration = false) : Reads options mark before after :=
  .of_sameButTokens [token] takes.same takes.tokens (by simpa using plain)

theorem suffix (reads : Reads options mark before after) : after.tokens <:+ before.tokens := by
  obtain ⟨taken, split, -⟩ := reads.taken
  exact ⟨taken, split.symm⟩

theorem length_le (reads : Reads options mark before after) :
    after.tokens.length ≤ before.tokens.length :=
  reads.suffix.length_le

theorem spelledDeclarations_eq (reads : Reads options mark before after) :
    spelledDeclarations before.tokens = spelledDeclarations after.tokens := by
  obtain ⟨taken, split, plain⟩ := reads.taken
  rw [split, spelledDeclarations_append plain]

end Reads

/-- A type that a type expression answers: the unit sees it, it is one of the file if it holds
anything, and every type that was added stands in it. -/
structure Encloses (mark : Nat) (before : TypeArena) (type : TypeId) (after : ParseState) : Prop where
  sees : after.unit.Sees type
  own : after.types.OwnFrom mark type
  added : ∀ id, before.size ≤ id → id < after.types.size →
    ReflTransGen after.types.HoldsElement type id

namespace Encloses

variable {mark : Nat} {origin : TypeArena} {state after : ParseState} {type : TypeId}

theorem of_elements (sees : state.unit.Sees type) (inside : type < state.types.size)
    (ne_void : type ≠ Primitive.void.id) (none : (state.types.node type).elements = []) :
    Encloses mark state.types type state where
  sees := sees
  own := .of_elements inside ne_void none
  added _ outside below := absurd below (Nat.not_lt.mpr outside)

theorem primitive (sound : state.types.Sound) {kind : Primitive}
    (ne_void : kind.id ≠ Primitive.void.id) : Encloses mark state.types kind.id state :=
  .of_elements (.inl ⟨kind, rfl⟩) (sound.primitive_lt kind) ne_void
    (by rw [sound.node_primitive]; rfl)

theorem of_same (encloses : Encloses mark origin type state)
    (same : Parse.SameButTokens state after) : Encloses mark origin type after := by
  rw [Parse.SameButTokens] at same
  rw [same]
  exact { encloses with }

end Encloses

/-- A type expression was read. -/
structure Expresses (options : Options) (mark : Nat) (before : TypeArena) (type : TypeId)
    (after : ParseState) : Prop where
  usable : Usable options after.types type
  encloses : Encloses mark before type after

theorem Expresses.of_same {options : Options} {mark : Nat} {origin : TypeArena} {type : TypeId}
    {state after : ParseState} (expresses : Expresses options mark origin type state)
    (same : Parse.SameButTokens state after) : Expresses options mark origin type after where
  usable := by
    rw [same.types_eq]
    exact expresses.usable
  encloses := expresses.encloses.of_same same

/-- The state with a new type that is visible under a key. -/
def withType (state : ParseState) (key : TypeKey) (node : TypeNode) : ParseState :=
  { state with
    unit := { state.unit with table := state.unit.table ++ [(key, state.types.size)] }
    program := { state.program with types := (state.types.alloc node).2 } }

@[simp] theorem types_withType (state : ParseState) (key : TypeKey) (node : TypeNode) :
    (state.withType key node).types = (state.types.alloc node).2 := rfl

theorem Sound.withType {state : ParseState} {key : TypeKey} {node : TypeNode} (sound : state.Sound)
    (denotes : key.Denotes node) (parts : ∀ part ∈ node.parts, part < state.types.size)
    (integral : ∀ declared, node = .enum declared → declared.base.isIntegral = true) :
    (state.withType key node).Sound :=
  { sound with
    types := sound.types.alloc parts integral
    table := by
      apply (sound.table.extend (.alloc _ node)).append_singleton
      · simp
      · simpa using denotes
    units := fun unit listed => (sound.units unit listed).extend (.alloc _ node) }

theorem Advances.withType {mark : Nat} {state : ParseState} (inside : mark ≤ state.types.size)
    (key : TypeKey) (node : TypeNode) : Advances mark state (state.withType key node) := by
  apply Advances.of_types state
  · intro _
    simp only [TypeArena.size_alloc]
    omega
  · intro entry listed _
    refine (List.mem_append.mp listed).imp_right fun new => ?_
    rw [List.mem_singleton.mp new]
    exact inside
  · intro id below
    exact TypeArena.node_alloc_of_lt (Nat.lt_of_lt_of_le below inside)
  · rfl
  · rfl

end ParseState

namespace Parse

open ParseState

variable {mark : Nat} {known : Prop} {before : ParseState} {options : Options}

/-- A type is visible already, or it is new. -/
theorem intern_cases (key : TypeKey) (node : TypeNode) (state : ParseState) :
    (∃ id, state.unit.visibleType? key = some id ∧ intern key node state = .ok id state) ∨
      (state.unit.visibleType? key = none ∧
        intern key node state = .ok state.types.size (state.withType key node)) := by
  have opened : intern key node state =
      let result := state.unit.intern state.program.types key node
      .ok result.1 { state with
        unit := result.2.1, program := { state.program with types := result.2.2 } } := rfl
  rw [opened, CompiledUnit.intern]
  cases visible : state.unit.visibleType? key with
  | some id => exact .inl ⟨id, rfl, rfl⟩
  | none => exact .inr ⟨rfl, rfl⟩

/-- A word that may stand inside a declaration. -/
def isPlain (kind : TokenKind) : Bool := kind != .eof && !kind.startsDeclaration

theorem ne_eof_of_isPlain {kind : TokenKind} (plain : isPlain kind = true) : kind ≠ .eof := by
  rintro rfl
  simp [isPlain] at plain

/-- A production that stays inside a declaration: a clean run `Reads`, and ensures more. -/
abbrev Reading {α : Type} (options : Options) (mark : Nat) (known : Prop) (before : ParseState)
    (production : Parse α) (post : α → ParseState → Prop) : Prop :=
  Ensures mark known before production fun value after =>
    Reads options mark before after ∧ post value after

namespace Reading

variable {α β σ : Type}

theorem pure {post : α → ParseState → Prop} {value : α}
    (holds : known → before.Sound → post value before) :
    Reading options mark known before (Pure.pure value) post :=
  Ensures.pure fun assumed sound => ⟨.refl before, holds assumed sound⟩

theorem bind {first : Parse α} {second : α → Parse β} {middle : α → ParseState → Prop}
    {post : β → ParseState → Prop} (starts : Reading options mark known before first middle)
    (goesOn : ∀ value state, first before = .ok value state → Advances mark before state →
      Reading options mark (known ∧ Reads options mark before state ∧ middle value state) state
        (second value) post) :
    Reading options mark known before (first >>= second) post := by
  apply Ensures.bind starts
  intro value state run advanced
  apply (goesOn value state run advanced).imp
  rintro result after ⟨-, first, -⟩ - ⟨second, holds⟩
  exact ⟨first.trans second, holds⟩

/-- What every run gives as well, a clean one ensures. -/
theorem andRun {production : Parse α} {post more : α → ParseState → Prop}
    (reading : Reading options mark known before production post)
    (gives : ∀ {value : α} {after : ParseState}, production before = .ok value after →
      more value after) :
    Reading options mark known before production fun value after =>
      post value after ∧ more value after := by
  intro since
  have result := reading since
  split at result
  · rename_i value after run
    refine ⟨result.1, fun clean assumed sound => ?_⟩
    obtain ⟨soundAfter, reads, holds⟩ := result.2 clean assumed sound
    exact ⟨soundAfter, reads, holds, gives run⟩
  · exact result

/-- Sequence behind a choice. -/
theorem bindIf {condition : Prop} [Decidable condition] {first other : Parse α}
    {second : α → Parse β} {middle : α → ParseState → Prop} {post : β → ParseState → Prop}
    (holds : condition → Reading options mark known before first middle)
    (fails : ¬condition → Reading options mark known before other middle)
    (goesOn : ∀ value state, Advances mark before state →
      Reading options mark (known ∧ Reads options mark before state ∧ middle value state) state
        (second value) post) :
    Reading options mark known before
      (if condition then first >>= second else other >>= second) post := by
  split
  · exact bind (holds ‹_›) fun value state _ advanced => goesOn value state advanced
  · exact bind (fails ‹_›) fun value state _ advanced => goesOn value state advanced

theorem reportIf {condition : Prop} [Decidable condition] {place : Position} {fault : SourceFault}
    {rest : PUnit → Parse α} {post : α → ParseState → Prop}
    (goesOn : ∀ state, Advances mark before state →
      Reading options mark (known ∧ state = before ∧ ¬condition) state (rest ⟨⟩) post) :
    Reading options mark known before
      (if condition then Parse.report place fault >>= rest else rest ⟨⟩) post := by
  apply Ensures.reportIf
  intro state advanced
  apply (goesOn state advanced).imp
  rintro value after ⟨-, rfl, -⟩ - ensured
  exact ensured

theorem loop {step : σ → Parse (σ ⊕ α)} {post : α → ParseState → Prop}
    (invariant : σ → ParseState → Prop) {start : σ}
    (holds : known → before.Sound → invariant start before)
    (counts : ∀ current state, invariant current state → invariant current state.counted)
    (round : ∀ current state, Advances mark before state →
      Reading options mark (known ∧ Reads options mark before state ∧ invariant current state) state
        (step current) (Ensures.Round invariant post state)) :
    Reading options mark known before (loop step start) post := by
  apply Ensures.loop fun current state => Reads options mark before state ∧ invariant current state
  · intro assumed sound
    exact ⟨.refl before, holds assumed sound⟩
  · rintro current state ⟨reads, kept⟩
    exact ⟨reads.trans (.of_sameButTokens [] rfl rfl (by simp)), counts current state kept⟩
  · intro current state advanced
    apply (round current state advanced).imp
    rintro result after ⟨-, reads, -⟩ - ⟨reading, ensured⟩
    cases result with
    | inl next => exact ⟨⟨reads.trans reading, ensured.1⟩, ensured.2⟩
    | inr value => exact ⟨reads.trans reading, ensured⟩

/-- Takes a token that must be a plain one for the rest to go on. -/
theorem bindNext {rest : Token → Parse α} {post : α → ParseState → Prop}
    (goesOn : ∀ token state, next before = .ok token state →
      Reading options mark known state (rest token) fun value after =>
        isPlain token.kind = true ∧
          (state.tokens.length < before.tokens.length → post value after)) :
    Reading options mark known before (next >>= rest) post := by
  apply Ensures.bind Ensures.next
  intro token state run _
  apply ((goesOn token state run).under _ And.left).imp
  rintro value after ⟨-, rfl, takes⟩ - ⟨reads, plain, holds⟩
  have taken := takes (ne_eof_of_isPlain plain)
  exact ⟨(Reads.of_takes taken (by simp_all [isPlain])).trans reads, holds taken.length_lt⟩

theorem expect {kind : TokenKind} {expected : String} (plain : isPlain kind = true) :
    Reading options mark known before (expect kind expected) fun _ after =>
      after.tokens.length < before.tokens.length := by
  apply (Ensures.expect (ne_eof_of_isPlain plain)).imp
  rintro token after - - ⟨takes, rfl⟩
  exact ⟨.of_takes takes (by simp_all [isPlain]), takes.length_lt⟩

theorem eat {kind : TokenKind} (plain : isPlain kind = true) :
    Reading options mark known before (eat kind) fun taken after =>
      taken = true → after.tokens.length < before.tokens.length := by
  apply (Ensures.eat (ne_eof_of_isPlain plain)).imp
  rintro taken after - - (⟨rfl, token, takes, rfl⟩ | ⟨rfl, rfl, -⟩)
  · exact ⟨.of_takes takes (by simp_all [isPlain]), fun _ => takes.length_lt⟩
  · exact ⟨.refl after, fun impossible => absurd impossible Bool.false_ne_true⟩

theorem record?_of_unnamed {node : TypeNode} (unnamed : node.name? = none) : node.record? = none := by
  cases node <;> simp_all [TypeNode.name?, TypeNode.record?]

theorem unmarked?_of_unnamed {node : TypeNode} (unnamed : node.name? = none) :
    node.unmarked? = none := by
  cases node <;> simp_all [TypeNode.name?, TypeNode.unmarked?]

theorem declaration?_of_unnamed {node : TypeNode} (unnamed : node.name? = none) :
    node.declaration? = none := by
  cases node <;> simp_all [TypeNode.name?, TypeNode.declaration?]

/-- A composite type, which encloses all that its elements do. -/
theorem intern {origin : TypeArena} {key : TypeKey} {node : TypeNode}
    (composite : key.isComposite = true) (denotes : key.Denotes node) (unnamed : node.name? = none)
    (addable : known → before.Sound → before.types.Addable options mark node)
    (sees : known → ∀ part ∈ node.parts, before.unit.Sees part)
    (enclosed : known → ∀ id, origin.size ≤ id → id < before.types.size →
      ∃ element ∈ node.elements, ReflTransGen before.types.HoldsElement element id) :
    Reading options mark known before (intern key node)
      fun id after => Encloses mark origin id after := by
  have unnamedKey := TypeKey.isNamed_of_isComposite composite
  intro since
  rcases intern_cases key node before with ⟨id, visible, run⟩ | ⟨-, run⟩
  · rw [run]
    refine ⟨.refl before, fun _ assumed sound => ⟨sound, .refl before, ?_⟩⟩
    have listed := CompiledUnit.mem_table_of_visibleType? visible
    obtain ⟨idInside, idDenotes⟩ := sound.table _ listed
    refine ⟨.inr ⟨key, listed⟩, ⟨idInside, sound.types.ne_void idDenotes (.inl composite),
      fun _ _ => since.containers _ listed composite⟩, fun inner outside below => ?_⟩
    obtain ⟨element, isElement, path⟩ := enclosed assumed inner outside below
    rw [denotes.unique unnamedKey idDenotes] at isElement
    exact .head isElement path
  · rw [run]
    refine ⟨.withType since.inside key node, fun _ assumed sound => ⟨?_, ?_, ?_⟩⟩
    · have added := addable assumed sound
      exact sound.withType denotes (fun part listed => (added.own part listed).inside) added.integral
    · exact
        { program := rfl
          unit := rfl
          sequenceables := rfl
          table := ⟨[(key, before.types.size)], rfl, by simpa using unnamedKey⟩
          types := .alloc _ node
          records := fun _ => TypeArena.record?_alloc (record?_of_unnamed unnamed)
          interfaces := fun _ => TypeArena.unmarked?_alloc (unmarked?_of_unnamed unnamed)
          undeclared := (TypeArena.AddsDeclared.alloc _ node).mono fun _ declared =>
            declared.2 (declaration?_of_unnamed unnamed)
          refers := .alloc rfl fun part listed =>
            (sees assumed part listed).mono (List.subset_append_left _ _)
          builds := .single (.add (addable assumed sound))
          taken := ⟨[], rfl, by simp⟩ }
    · refine ⟨.inr ⟨key, List.mem_append_right _ List.mem_cons_self⟩,
        ⟨by simp, Nat.ne_of_gt (sound.types.primitive_lt .void), fun _ _ => since.inside⟩,
        fun inner outside below => ?_⟩
      rw [types_withType, TypeArena.size_alloc] at below
      rcases Nat.lt_succ_iff_lt_or_eq.mp below with earlier | rfl
      · obtain ⟨element, isElement, path⟩ := enclosed assumed inner outside earlier
        refine .head ?_ ((TypeArena.Extends.alloc before.types node).holdsElement_path path)
        rw [types_withType, TypeArena.HoldsElement, TypeArena.node_alloc_size]
        exact isElement
      · exact .refl

/-- A composite type with one element. -/
theorem internElement {origin : TypeArena} {key : TypeKey} {node : TypeNode} {element : TypeId}
    (composite : key.isComposite = true) (denotes : key.Denotes node) (unnamed : node.name? = none)
    (parts : node.parts = [element]) (elements : node.elements = [element])
    (encloses : known → Encloses mark origin element before)
    (usable : known → before.Sound →
      ∀ part ∈ node.checkedParts, Usable options before.types part)
    (notInterface : known → before.types.interface? element = none)
    (plain : known → ∀ item, node = .queue item → (before.types.fixedSize? item).isSome) :
    Reading options mark known before (Parse.intern key node)
      fun id after => Encloses mark origin id after := by
  apply intern composite denotes unnamed
  · intro assumed sound
    refine .of_unnamed unnamed (denotes.ne_primitive (.inl composite)) ?_ (usable assumed sound)
      ?_ (plain assumed)
    · simpa [parts] using (encloses assumed).own
    · simpa [elements] using notInterface assumed
  · intro assumed
    simpa [parts] using (encloses assumed).sees
  · intro assumed id outside below
    exact ⟨element, by simp [elements], (encloses assumed).added id outside below⟩

theorem checkElement (type : TypeId) (place : Position) :
    Reading options mark known before (checkElement type place) fun _ _ => True := by
  apply Ensures.bindOk (types_run before)
  split
  · exact Ensures.fail _ _
  · exact pure fun _ _ => trivial

theorem checkElement_ok {type : TypeId} {place : Position} {value : Unit} {after : ParseState}
    (run : Parse.checkElement type place before = .ok value after) :
    after = before ∧ before.types.interface? type = none := by
  obtain ⟨arena, state, isTypes, rest⟩ := bind_eq_ok.mp run
  cases isTypes
  unfold TypeArena.interface?
  cases node : before.types.node type with
  | interface declared =>
      simp only [node] at rest
      cases rest
  | _ =>
      simp only [node] at rest
      cases rest
      exact ⟨rfl, rfl⟩

theorem checkSupport (type : TypeId) (place : Position) :
    Reading options mark known before (checkSupport options type place) fun _ after =>
      supportFault? options after.types type = none := by
  apply Ensures.bindOk (types_run before)
  split
  · exact Ensures.fail _ _
  · rename_i supported
    exact pure fun _ _ => supported

theorem checkSupport_ok {type : TypeId} {place : Position} {value : Unit} {after : ParseState}
    (run : Parse.checkSupport options type place before = .ok value after) : after = before := by
  obtain ⟨arena, state, isTypes, rest⟩ := bind_eq_ok.mp run
  cases isTypes
  cases fault : supportFault? options before.types type with
  | some found =>
      simp only [fault] at rest
      cases rest
  | none =>
      simp only [fault] at rest
      cases rest
      rfl

theorem unsignedType :
    Reading options mark known before unsignedType
      fun id after => Encloses mark before.types id after := by
  apply bindNext
  intro token state run
  obtain ⟨-, rfl⟩ : ahead before = token ∧ { before with tokens := before.tokens.tail } = state := by
    simpa [next_run] using run
  cases token.kind
  case char | byte | short | int | long =>
    apply pure
    intro _ sound
    exact ⟨rfl, fun _ => .primitive sound.types (by decide)⟩
  all_goals exact Ensures.unexpected

section Containers

variable {typeExpression : Parse TypeId}

theorem elementType
    (reads : Reading options mark known before typeExpression
      fun type after => Expresses options mark before.types type after) :
    Reading options mark known before (elementType typeExpression) fun type after =>
      Expresses options mark before.types type after ∧ after.types.interface? type = none := by
  apply Ensures.bindOk (peek_run before)
  apply bind reads
  intro type state _ _
  apply bind (checkElement type _)
  intro _ after run _
  obtain ⟨rfl, notInterface⟩ := checkElement_ok run
  apply pure
  rintro ⟨⟨-, -, expresses⟩, -⟩ -
  exact ⟨expresses, notInterface⟩

variable (reads : ∀ (known : Prop) (state : ParseState),
  state.tokens.length ≤ before.tokens.length →
    Reading options mark known state typeExpression
      fun type after => Expresses options mark state.types type after)

include reads

theorem listType : Reading options mark known before (listType typeExpression)
    fun id after => Encloses mark before.types id after := by
  apply bind (expect rfl)
  intro _ opened openRun opens
  apply bind (elementType (reads _ opened opens.tokens.length_le))
  intro element read _ _
  apply bind (expect rfl)
  intro _ closed closeRun _
  have sameOpened := (expect_ok (by decide) openRun).1.same.types_eq
  have sameClosed := (expect_ok (by decide) closeRun).1.same
  apply internElement (by rfl) (by exact rfl) (by rfl) (by rfl) (by rfl)
  · rintro ⟨⟨-, -, expresses, -⟩, -⟩
    rw [← sameOpened]
    exact expresses.encloses.of_same sameClosed
  · rintro ⟨⟨-, -, expresses, -⟩, -⟩ - part listed
    obtain rfl := List.mem_singleton.mp listed
    exact (expresses.of_same sameClosed).usable
  · rintro ⟨⟨-, -, -, notInterface⟩, -⟩
    rw [sameClosed.types_eq]
    exact notInterface
  · rintro - item ⟨⟩

theorem mapType : Reading options mark known before (mapType typeExpression)
    fun id after => Encloses mark before.types id after := by
  apply bind (expect rfl)
  intro _ opened openRun opens
  apply bind (elementType (reads _ opened opens.tokens.length_le))
  intro key keyRead _ readsKey
  apply bind (expect rfl)
  intro _ separated separateRun separates
  have shorter := ((opens.trans readsKey).trans separates).tokens.length_le
  apply bind (elementType (reads _ separated shorter))
  intro value valueRead _ _
  apply bind (expect rfl)
  intro _ closed closeRun _
  have sameOpened := (expect_ok (by decide) openRun).1.same.types_eq
  have sameSeparated := (expect_ok (by decide) separateRun).1.same.types_eq
  have sameClosed := (expect_ok (by decide) closeRun).1.same.types_eq
  apply intern (by rfl) (by exact rfl) (by rfl)
  · rintro ⟨⟨⟨⟨-, -, ofKey, keyNotInterface⟩, -⟩, readsValue, ofValue, valueNotInterface⟩, -⟩ -
    have grown : keyRead.types.Extends valueRead.types := sameSeparated ▸ readsValue.types
    rw [sameClosed]
    have usable : ∀ part ∈ [key, value], Usable options valueRead.types part := by
      intro part listed
      rcases List.mem_pair.mp listed with rfl | rfl
      · exact ofKey.usable.extend grown
      · exact ofValue.usable
    refine .of_unnamed rfl (by simp) (fun part listed => ?_) usable (fun element listed => ?_)
      (by simp)
    · rcases List.mem_pair.mp listed with rfl | rfl
      · exact ofKey.encloses.own.extend grown
      · exact ofValue.encloses.own
    · rcases List.mem_pair.mp listed with rfl | rfl
      · exact grown.interface?_eq_none ofKey.usable.inside keyNotInterface
      · exact valueNotInterface
  · rintro ⟨⟨⟨⟨-, -, ofKey, -⟩, separates, -⟩, readsValue, ofValue, -⟩, closes, -⟩ part listed
    have behindKey := (separates.trans readsValue).trans closes
    rcases List.mem_pair.mp listed with rfl | rfl
    · exact ofKey.encloses.sees.mono behindKey.table_subset
    · exact ofValue.encloses.sees.mono closes.table_subset
  · rintro ⟨⟨⟨⟨-, -, ofKey, -⟩, -⟩, readsValue, ofValue, -⟩, -⟩ id outside below
    have grown : keyRead.types.Extends valueRead.types := sameSeparated ▸ readsValue.types
    rw [sameClosed] at below ⊢
    -- What reading the key has added stands in the key, and what came later in the value.
    rcases Nat.lt_or_ge id keyRead.types.size with inKey | inValue
    · refine ⟨key, by simp [TypeNode.elements], grown.holdsElement_path ?_⟩
      exact ofKey.encloses.added id (sameOpened ▸ outside) inKey
    · refine ⟨value, by simp [TypeNode.elements], ?_⟩
      exact ofValue.encloses.added id (sameSeparated ▸ inValue) below

theorem queueType (place : Position) :
    Reading options mark known before (queueType typeExpression place)
      fun id after => Encloses mark before.types id after := by
  apply bind (expect rfl)
  intro _ opened openRun opens
  apply bind (elementType (reads _ opened opens.tokens.length_le))
  intro element read _ _
  apply bind (expect rfl)
  intro _ closed closeRun _
  have sameOpened := (expect_ok (by decide) openRun).1.same.types_eq
  have sameClosed := (expect_ok (by decide) closeRun).1.same
  apply Ensures.bindOk (types_run closed)
  apply Ensures.failIf
  apply internElement (by rfl) (by exact rfl) (by rfl) (by rfl) (by rfl)
  · rintro ⟨⟨⟨-, -, expresses, -⟩, -⟩, -⟩
    rw [← sameOpened]
    exact expresses.encloses.of_same sameClosed
  · rintro ⟨⟨⟨-, -, expresses, -⟩, -⟩, -⟩ - part listed
    obtain rfl := List.mem_singleton.mp listed
    exact (expresses.of_same sameClosed).usable
  · rintro ⟨⟨⟨-, -, -, notInterface⟩, -⟩, -⟩
    rw [sameClosed.types_eq]
    exact notInterface
  · rintro ⟨-, sized⟩ item ⟨⟩
    simpa [Option.isSome_iff_ne_none] using sized

end Containers

/-- A name denotes a declared type that is visible in the unit. -/
theorem mem_table_of_lookup? {unit : CompiledUnit} {namespaces : NamespaceTree} {name : String}
    {id : TypeId} (found : unit.lookup? namespaces name = some id) :
    ∃ namespaceId short, (.named namespaceId short, id) ∈ unit.table := by
  rw [CompiledUnit.lookup?] at found
  split at found
  · obtain ⟨namespaceId, -, visible⟩ := Option.bind_eq_some_iff.mp found
    exact ⟨_, _, CompiledUnit.mem_table_of_visibleType? visible⟩
  · split at found
    · rename_i known visible
      obtain rfl : known = id := by simpa using found
      exact ⟨_, _, CompiledUnit.mem_table_of_visibleType? visible⟩
    · obtain ⟨⟨key, listedId⟩, listed, shown⟩ := List.exists_of_findSome?_eq_some found
      cases key with
      | named namespaceId short =>
          obtain rfl : listedId = id := by simp_all
          exact ⟨_, _, listed⟩
      | _ => simp at shown

/-- Declared types hold no elements. -/
theorem elements_of_named {namespaceId : NamespaceId} {name : String} {node : TypeNode}
    (denotes : (TypeKey.named namespaceId name).Denotes node) : node.elements = [] := by
  obtain ⟨-, named⟩ := denotes
  cases node <;> simp_all [TypeNode.name?, TypeNode.elements]

theorem plain_of_dots {taken : List Token}
    (kinds : ∀ token ∈ taken, token.kind = .dot ∨ token.kind = .identifier) :
    ∀ token ∈ taken, token.kind.startsDeclaration = false := by
  intro token listed
  rcases kinds token listed with isDot | isName
  · rw [isDot]; rfl
  · rw [isName]; rfl

theorem namedType (first : Token) : Reading options mark known before (namedType first)
    fun id after => Encloses mark before.types id after := by
  apply Ensures.bind (Ensures.dottedTail first.text)
  intro name state _ _
  apply Ensures.bindOk (get_run state)
  split
  · rename_i id found
    apply Ensures.pure
    rintro ⟨-, read, same⟩ sound
    obtain ⟨taken, split, kinds, -⟩ := Header.dottedTail_eq_some read
    obtain ⟨namespaceId, short, listed⟩ := mem_table_of_lookup? found
    refine ⟨.of_sameButTokens taken same split (plain_of_dots kinds), ?_⟩
    rw [← same.types_eq]
    obtain ⟨inside, denotes⟩ := sound.table _ listed
    exact .of_elements (.inr ⟨_, listed⟩) inside (sound.types.ne_void denotes (.inr rfl))
      (elements_of_named denotes)
  · exact Ensures.fail _ _

theorem arraySuffix {origin : TypeArena} (base : TypeId) (place : Position)
    (encloses : known → Encloses mark origin base before) :
    Reading options mark known before (arraySuffix base place)
      fun id after => Encloses mark origin id after := by
  apply loop fun type state => Encloses mark origin type state
  · intro assumed _
    exact encloses assumed
  · exact fun _ _ encloses => encloses.of_same rfl
  · intro type state _
    apply bind (eat rfl)
    intro taken opened eatRun _
    split
    · rename_i isTaken
      apply bind (expect rfl)
      intro _ closed closeRun _
      apply bind (checkElement type place)
      intro _ checked checkRun _
      obtain ⟨rfl, notInterface⟩ := checkElement_ok checkRun
      have unchanged : SameButTokens state checked := by
        rcases eat_ok (by decide) eatRun with ⟨-, token, takes, -⟩ | ⟨notTaken, -⟩
        · exact takes.same.trans (expect_ok (by decide) closeRun).1.same
        · rw [isTaken] at notTaken
          cases notTaken
      apply bind
      · apply internElement (by rfl) (by exact rfl) (by rfl) (by rfl) (by rfl)
        · rintro ⟨⟨⟨⟨-, -, encloses⟩, -⟩, -⟩, -⟩
          exact encloses.of_same unchanged
        · intro _ _ part listed
          simp [TypeNode.checkedParts] at listed
        · intro _
          exact notInterface
        · rintro - item ⟨⟩
      · intro id after _ _
        apply pure
        rintro ⟨⟨⟨⟨-, opens, shorter⟩, closes, -⟩, checks, -⟩, interns, encloses⟩ -
        refine ⟨encloses, Nat.lt_of_le_of_lt ?_ (shorter isTaken)⟩
        exact ((closes.trans checks).trans interns).length_le
    · rename_i notTaken
      apply pure
      rintro ⟨⟨-, -, encloses⟩, -⟩ -
      rcases eat_ok (by decide) eatRun with ⟨isTaken, -⟩ | ⟨-, rfl, -⟩
      · exact absurd isTaken notTaken
      · exact encloses

theorem baseType {typeExpression : Parse TypeId} {token : Token}
    (reads : token.kind ≠ .eof → ∀ (known : Prop) (state : ParseState),
      state.tokens.length ≤ before.tokens.length →
        Reading options mark known state typeExpression
          fun type after => Expresses options mark state.types type after) :
    Reading options mark known before (baseType typeExpression token) fun id after =>
      isPlain token.kind = true ∧ Encloses mark before.types id after := by
  have behind {kind : TokenKind} {production : Parse TypeId} (plain : isPlain kind = true)
      (encloses : Reading options mark known before production
        fun id after => Encloses mark before.types id after) :
      Reading options mark known before production fun id after =>
        isPlain kind = true ∧ Encloses mark before.types id after :=
    encloses.imp fun _ _ _ _ ⟨reads, encloses⟩ => ⟨reads, plain, encloses⟩
  have primitive {kind : Primitive} (ne_void : kind.id ≠ Primitive.void.id) :
      Reading options mark known before (Pure.pure kind.id)
        fun id after => Encloses mark before.types id after :=
    pure fun _ sound => .primitive sound.types ne_void
  unfold Parse.baseType
  cases found : token.kind
  case boolean | byte | char | short | int | long | float | double | string | fileDescriptor =>
    exact behind rfl (primitive (by decide))
  case unsigned => exact behind rfl unsignedType
  case list => exact behind rfl (listType (reads (by simp [found])))
  case map => exact behind rfl (mapType (reads (by simp [found])))
  case sharedMemQueue => exact behind rfl (queueType (reads (by simp [found])) token.place)
  case identifier => exact behind rfl (namedType token)
  all_goals exact Ensures.unexpected

/-- Each level of containers takes a token, so a depth above the number of tokens is never reached. -/
theorem typeWithin (depth : Nat) (enough : before.tokens.length < depth) :
    Reading options mark known before (typeWithin options depth)
      fun type after => Expresses options mark before.types type after := by
  induction depth generalizing before known with
  | zero => exact absurd enough (Nat.not_lt_zero _)
  | succ depth ih =>
      apply bindNext
      intro token state run
      obtain ⟨rfl, rfl⟩ : ahead before = token ∧
          { before with tokens := before.tokens.tail } = state := by
        simpa [next_run] using run
      apply bind
      · apply baseType
        intro notEnd known inner shorter
        apply ih
        have taken := (takes_ahead notEnd).length_lt
        omega
      intro base based _ _
      apply bind
      · apply arraySuffix base
        rintro ⟨-, -, -, encloses⟩
        exact encloses
      intro type suffixed _ _
      apply bind (checkSupport type _)
      intro _ checked checkRun _
      obtain rfl := checkSupport_ok checkRun
      apply pure
      rintro ⟨⟨⟨-, -, plain, -⟩, -, encloses⟩, -, supported⟩ sound
      exact ⟨plain, fun _ => ⟨.of_sound sound.types encloses.own.inside supported, encloses⟩⟩

theorem typeExpression : Reading options mark known before (typeExpression options)
    fun type after => Expresses options mark before.types type after := by
  apply Ensures.bindOk (get_run before)
  exact typeWithin _ (Nat.lt_succ_self _)

end Reading

end Parse

end DriverIdl
