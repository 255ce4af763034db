import DriverIdl.Proofs.Program.Reachable

/-!
# Names in a program

Whatever a program names comes from an identifier of some text, which is a word.  Types and their
members, methods and parameters are named so, and the segments of packages, also those of a text that
was refused.
-/

namespace DriverIdl

open Parse

namespace TypeArena

variable {options : Options} {mark : Nat} {before after : TypeArena}

/-- All names that types bring are words. -/
def Spelled (types : TypeArena) : Prop :=
  ∀ id, ∀ name ∈ (types.node id).names, Text.IsWord name

theorem Spelled.initial : Spelled {} := by
  intro id name listed
  have unnamed : (({} : TypeArena).node id).names = [] := by
    rcases Nat.lt_or_ge id Primitive.all.length with inside | outside
    · have each : ∀ index < Primitive.all.length, (({} : TypeArena).node index).names = [] := by decide
      exact each id inside
    · rw [node_of_size_le outside]
      rfl
  rw [unnamed] at listed
  cases listed

/-- A change of one type names what the type named, or words. -/
theorem Spelled.update (spelled : before.Spelled) (changed : TypeId) {change : TypeNode → TypeNode}
    (words : ∀ node, ∀ name ∈ (change node).names, name ∈ node.names ∨ Text.IsWord name) :
    (before.update changed change).Spelled := by
  intro id name listed
  by_cases isChanged : id = changed
  · subst isChanged
    rcases Nat.lt_or_ge id before.size with inside | outside
    · rw [node_update_self inside] at listed
      exact (words _ name listed).elim (spelled id name) fun isWord => isWord
    · rw [node_of_size_le (by rwa [size_update])] at listed
      cases listed
  · rw [node_update_of_ne isChanged] at listed
    exact spelled id name listed

theorem Change.spelled (change : Change options mark before after) (spelled : before.Spelled) :
    after.Spelled := by
  cases change with
  | @add node addable =>
      intro id name listed
      rcases Nat.lt_trichotomy id before.size with inside | rfl | outside
      · rw [node_alloc_of_lt inside] at listed
        exact spelled id name listed
      · rw [node_alloc_size] at listed
        exact addable.words name listed
      · rw [node_of_size_le (by rw [size_alloc]; omega)] at listed
        cases listed
  | @fill id members fillable =>
      refine spelled.update id fun node name listed => ?_
      rcases mem_names_setMembers listed with ⟨member, isMember, rfl⟩ | had
      · exact .inr (fillable.words member isMember)
      · exact .inl had
  | mark id =>
      refine spelled.update id fun node name listed => .inl ?_
      rwa [markSerializable_names] at listed

theorem Builds.spelled (builds : Builds options mark before after) (spelled : before.Spelled) :
    after.Spelled := by
  induction builds with
  | refl => exact spelled
  | tail _ change ih => exact change.spelled ih

end TypeArena

namespace NamespaceTree

variable {before after : NamespaceTree}

/-- The names of all nodes are words; that of the root is empty. -/
def Spelled (tree : NamespaceTree) : Prop := ∀ id, Text.OnlyWord (tree.node id).name.toList

theorem Spelled.initial : Spelled {} := by
  intro id
  match id with
  | 0 => exact fun character impossible => by cases impossible
  | id + 1 => exact onlyWord_name_of_size_le (by simp)

theorem Spelled.extend (spelled : before.Spelled) (grown : before.Extends after) : after.Spelled := by
  intro id
  rcases Nat.lt_or_ge id before.nodes.size with inside | outside
  · rw [grown.name_eq id inside]
    exact spelled id
  · exact grown.named id outside

theorem Spelled.onlyWord {tree : NamespaceTree} (spelled : tree.Spelled) {id : NamespaceId}
    {segment : String} (listed : segment ∈ tree.segments id) : Text.OnlyWord segment.toList := by
  have walk : ∀ steps id, segment ∈ tree.namesUp steps id → Text.OnlyWord segment.toList := by
    intro steps
    induction steps with
    | zero => intro _ impossible; cases impossible
    | succ steps ih =>
        intro id listed
        rw [namesUp] at listed
        split at listed
        · cases listed
        · rcases List.mem_cons.mp listed with rfl | above
          · exact spelled id
          · exact ih _ above
  exact walk _ id (List.mem_reverse.mp listed)

end NamespaceTree

namespace Program

variable {program : Program} {options : Options} {start read : ParseState} {outcome : ParseOutcome}

/-- Types, with what they bring, and packages are named with words. -/
structure Spelled (program : Program) : Prop where
  types : program.types.Spelled
  namespaces : program.namespaces.Spelled

theorem Rejects.spelled (rejects : Rejects start read outcome)
    (advanced : start.Advances start.types.size read) (wellFormed : start.program.WellFormed)
    (spelled : start.program.Spelled) : outcome.program.Spelled := by
  obtain ⟨size, nodes⟩ := rejects.types advanced wellFormed.types
  refine ⟨fun id name listed => ?_, ?_⟩
  · rcases Nat.lt_or_ge id start.types.size with inside | outside
    · apply spelled.types id name
      rcases nodes id inside with same | ⟨-, marked⟩
      · rwa [same] at listed
      · rwa [marked, markSerializable_names] at listed
    · rw [TypeArena.node_of_size_le (by omega)] at listed
      cases listed
  · rw [rejects.program]
    exact spelled.namespaces.extend (advanced.namespaces wellFormed.namespaces)

theorem Accepts.spelled (accepts : Accepts options start read outcome)
    (advanced : start.Advances start.types.size read) (wellFormed : start.program.WellFormed)
    (spelled : start.program.Spelled) : outcome.program.Spelled where
  types := by
    rw [accepts.types_eq]
    exact accepts.built.builds.spelled spelled.types
  namespaces := spelled.namespaces.extend (accepts.wellFormed wellFormed advanced).1.namespaces

/-- The names of a program that parsing builds are words. -/
theorem Reachable.spelled (reachable : program.Reachable) : program.Spelled := by
  induction reachable with
  | empty => exact ⟨.initial, .initial⟩
  | parse options diagnostics path source reachable ih =>
      obtain ⟨read, advanced, rejects | accepts⟩ :=
        parseSource_cases reachable.wellFormed options diagnostics path source
      · exact rejects.spelled advanced reachable.wellFormed ih
      · exact accepts.spelled advanced reachable.wellFormed ih

end Program

end DriverIdl
