import DriverIdl.Proofs.Dump.Header
import DriverIdl.Proofs.Program.Spelling

/-!
# The sequenceables of a program

Every sequenceable of a program stands in a unit of its own: the unit shows its type under the name
that it has itself, and the package of the unit is there.
-/

namespace DriverIdl

open Parse ParseState

/-- The names down to a node are the segments of its dotted name. -/
theorem NamespaceTree.segments_of_fullName {tree : NamespaceTree} {id : NamespaceId}
    {package : String} (spelled : tree.Spelled) (dotted : Package.Dotted package)
    (named : tree.fullName id = package) : tree.segments id = Package.segments package := by
  have undotted : ∀ letters ∈ (tree.segments id).map String.toList, '.' ∉ letters := by
    intro letters listed inside
    obtain ⟨segment, isSegment, rfl⟩ := List.mem_map.mp listed
    have isWordChar := spelled.onlyWord isSegment '.' inside
    cases isWordChar
  have nonempty : (tree.segments id).map String.toList ≠ [] := by
    intro nothing
    rw [List.map_eq_nil_iff] at nothing
    rw [fullName, nothing] at named
    subst named
    exact (dotted [] (by simp [Text.pieces])).1 rfl
  have pieces : package.toList.splitOn '.' = (Package.segments package).map String.toList :=
    Package.pieces_of_dotted dotted
  have whole : package.toList = ['.'].intercalate ((tree.segments id).map String.toList) := by
    rw [← named, fullName, String.toList_intercalate]
    rfl
  rw [whole, List.splitOn_intercalate '.' undotted nonempty] at pieces
  exact List.map_injective_iff.mpr (fun _ _ same => String.toList_injective same) pieces

theorem Announces.dotted {keyword : TokenKind} {name : String} {tokens : List Token}
    (announces : Announces keyword name tokens) (words : ∀ token ∈ tokens, token.WellSpelled) :
    Package.Dotted name := by
  obtain ⟨word, rest, semicolon, others, suffix, -, reads, -⟩ := announces
  obtain ⟨_, _, _, dotted⟩ := Header.dottedName_eq_some reads
  exact dotted fun token listed => words token (suffix.subset (List.mem_cons_of_mem _ listed))

namespace CompiledUnit.HoldsSequenceable

variable {before after : Program} {unit : CompiledUnit} {type : TypeId}

theorem extend (holds : unit.HoldsSequenceable before.types before.namespaces type)
    (grown : before.Extends after) (wellFormed : before.namespaces.WellFormed) :
    unit.HoldsSequenceable after.types after.namespaces type :=
  { holds with
    named := by
      have outline := grown.types.outline_eq type (lt_size_of_namedKey? holds.named)
      rw [namedKey?, TypeNode.namespaceId?_congr outline, TypeNode.name?_congr outline]
      exact holds.named
    leads := holds.leads.of_keeps wellFormed grown.namespaces.keeps }

/-- A sequenceable that is set aside is held by its unit. -/
theorem of_setAside {state : ParseState} {entry : String × CompiledUnit}
    (setAside : SetAside state entry) (dotted : Package.Dotted entry.1)
    (types : state.types.Spelled) (namespaces : state.program.namespaces.Spelled) :
    ∃ type, entry.2.HoldsSequenceable state.types state.program.namespaces type := by
  obtain ⟨package, name, namespaceId, type, rfl, inside, isPackage, typeInside, node⟩ := setAside
  obtain ⟨isDotted, -⟩ := Package.dotted_join.mp dotted
  have isWord : Text.IsWord name := types type name (by rw [node]; simp [TypeNode.names])
  have nonempty : package.toList ≠ [] := by
    intro nothing
    exact (isDotted [] (by simp [nothing, Text.pieces])).1 rfl
  have free : (Primitive.all.map fun primitive => (TypeKey.primitive primitive, primitive.id)).lookup
      (.named namespaceId name) = none := by
    rw [List.lookup_eq_none_iff]
    intro entry listed
    obtain ⟨primitive, -, rfl⟩ := List.mem_map.mp listed
    rfl
  exact ⟨type,
    { interface := rfl
      definitions := rfl
      visible := by
        have shown := CompiledUnit.lookup_tableWith (Primitive.all.map fun primitive =>
          (TypeKey.primitive primitive, primitive.id)) (.named namespaceId name)
          (.named namespaceId name) type
        rw [free, Option.none_or, List.lookup_cons_self] at shown
        exact shown
      named := by rw [namedKey?, node]; rfl
      split := Package.splitFullName?_join nonempty isWord
      leads := ⟨inside, NamespaceTree.segments_of_fullName namespaces isDotted isPackage⟩ }⟩

end CompiledUnit.HoldsSequenceable

namespace Program

variable {options : Options} {start read : ParseState} {outcome : ParseOutcome}

/-- A program with rejected text holds what it held. -/
theorem Rejects.grown (rejects : Rejects start read outcome)
    (advanced : start.Advances start.types.size read) (wellFormed : start.program.WellFormed) :
    start.program.Extends outcome.program where
  types := by
    obtain ⟨size, nodes⟩ := rejects.types advanced wellFormed.types
    exact types_extends_of_marks size fun id below => (nodes id below).imp_right And.right
  namespaces := by
    rw [rejects.program]
    exact advanced.namespaces wellFormed.namespaces
  units := ⟨#[], by rw [rejects.program, advanced.units]; simp⟩

/-- Every sequenceable of a program. -/
def HoldsSequenceables (program : Program) : Prop :=
  ∀ unit ∈ program.units, unit.kind = .sequenceable →
    ∃ type, unit.HoldsSequenceable program.types program.namespaces type

theorem Accepts.holdsSequenceables (accepts : Accepts options start read outcome)
    (advanced : start.Advances start.types.size read) (wellFormed : start.program.WellFormed)
    (words : ∀ token ∈ start.tokens, token.WellSpelled)
    (spelled : start.program.Spelled) (holds : start.program.HoldsSequenceables) :
    outcome.program.HoldsSequenceables := by
  intro unit listed isSequenceable
  have grown := (accepts.wellFormed wellFormed advanced).1
  rcases accepts.mem_units listed with earlier | ⟨entry, isEntry, rfl⟩ | ⟨state, published, rfl, -⟩
  · rw [advanced.units] at earlier
    obtain ⟨type, held⟩ := holds unit earlier isSequenceable
    exact ⟨type, held.extend grown wellFormed.namespaces⟩
  · obtain ⟨announces, setAside⟩ := accepts.built.sequenceables entry isEntry
    have types : read.types.Spelled := accepts.built.builds.spelled spelled.types
    have namespaces : read.program.namespaces.Spelled :=
      spelled.namespaces.extend (advanced.namespaces wellFormed.namespaces)
    obtain ⟨type, held⟩ := CompiledUnit.HoldsSequenceable.of_setAside setAside
      (announces.dotted words) types namespaces
    exact ⟨type, held.extend accepts.grown
      ((advanced.namespaces wellFormed.namespaces).wellFormed wellFormed.namespaces)⟩
  · have kind : state.unit.kind = unitKind read.types read.unit := by rw [published.unit]; rfl
    rw [kind, unitKind] at isSequenceable
    split at isSequenceable
    · split at isSequenceable <;> cases isSequenceable
    · cases isSequenceable

/-- The sequenceables of a program are held by their units. -/
theorem Reachable.holdsSequenceables {program : Program} (reachable : program.Reachable) :
    program.HoldsSequenceables := by
  induction reachable with
  | empty => exact fun unit listed => by cases Array.not_mem_empty unit listed
  | parse options diagnostics path source reachable ih =>
      obtain ⟨read, advanced, rejects | accepts⟩ :=
        parseSource_cases reachable.wellFormed options diagnostics path source
      · intro unit listed isSequenceable
        rw [rejects.program, advanced.units] at listed
        obtain ⟨type, held⟩ := ih unit listed isSequenceable
        exact ⟨type, held.extend (rejects.grown advanced reachable.wellFormed)
          reachable.wellFormed.namespaces⟩
      · exact accepts.holdsSequenceables advanced reachable.wellFormed
          (since_start diagnostics path source (Nat.le_refl _)).spelled reachable.spelled ih

end Program

end DriverIdl
