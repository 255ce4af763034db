import Mathlib.Data.Finset.Card
import Mathlib.Logic.Relation

/-!
# Cycles in finite graphs

Types contain types and units import units.  Both checks ask the same question: from which vertices
of a finite graph can a cycle be reached?  A vertex reaches one exactly if one of its successors
does, and away from cycles the number of reachable vertices drops along every edge.
-/

namespace DriverIdl

open Relation

section Cycles

variable {α : Type*} {relation : α → α → Prop}

/-- A cycle can be reached from `start`, which may lie on it. -/
def ReachesCycle (relation : α → α → Prop) (start : α) : Prop :=
  ∃ vertex, ReflTransGen relation start vertex ∧ TransGen relation vertex vertex

theorem ReachesCycle.of_onCycle {vertex : α} (cycle : TransGen relation vertex vertex) :
    ReachesCycle relation vertex :=
  ⟨vertex, .refl, cycle⟩

theorem ReachesCycle.of_path {first last : α} (path : ReflTransGen relation first last)
    (reaches : ReachesCycle relation last) : ReachesCycle relation first := by
  obtain ⟨vertex, rest, cycle⟩ := reaches
  exact ⟨vertex, path.trans rest, cycle⟩

/-- Whatever reaches a cycle has a successor that does. -/
theorem ReachesCycle.exists_successor {start : α} (reaches : ReachesCycle relation start) :
    ∃ next, relation start next ∧ ReachesCycle relation next := by
  obtain ⟨vertex, path, cycle⟩ := reaches
  rcases path.cases_head with atVertex | ⟨next, edge, rest⟩
  · subst atVertex
    obtain ⟨next, edge, back⟩ := TransGen.head'_iff.mp cycle
    exact ⟨next, edge, start, back, cycle⟩
  · exact ⟨next, edge, vertex, rest, cycle⟩

/-- A list in which all vertices of a kind that a vertex has an edge to stand behind it. -/
def Grounded (relation : α → α → Prop) (kind : α → Prop) : List α → Prop
  | [] => True
  | vertex :: rest =>
    (∀ next, relation vertex next → kind next → next ∈ rest) ∧ Grounded relation kind rest

theorem Grounded.not_reachesCycle {kind : α → Prop}
    (ofKind : ∀ vertex, ReachesCycle relation vertex → kind vertex) {vertices : List α}
    (grounded : Grounded relation kind vertices) {start : α} (listed : start ∈ vertices) :
    ¬ReachesCycle relation start := by
  induction vertices generalizing start with
  | nil => simp at listed
  | cons vertex rest ih =>
      intro reaches
      rcases List.mem_cons.mp listed with rfl | behind
      · obtain ⟨next, edge, onward⟩ := reaches.exists_successor
        exact ih grounded.2 (grounded.1 next edge (ofKind next onward)) onward
      · exact ih grounded.2 behind reaches

end Cycles

section Height

variable {α : Type*} (relation : α → α → Prop) (vertices : Finset α)

open Classical in
/-- How many of some vertices can be reached from `start`. -/
noncomputable def reachCount (start : α) : Nat :=
  (vertices.filter fun vertex => ReflTransGen relation start vertex).card

theorem reachCount_le_card (start : α) : reachCount relation vertices start ≤ vertices.card := by
  classical
  exact Finset.card_filter_le _ _

variable {relation vertices}

theorem reachCount_lt_of_edge {outer inner : α} (listed : outer ∈ vertices)
    (edge : relation outer inner) (offCycle : ¬TransGen relation outer outer) :
    reachCount relation vertices inner < reachCount relation vertices outer := by
  classical
  apply Finset.card_lt_card
  refine ⟨?_, ?_⟩
  · intro vertex member
    obtain ⟨inVertices, path⟩ := Finset.mem_filter.mp member
    exact Finset.mem_filter.mpr ⟨inVertices, path.head edge⟩
  · intro included
    have outerMember : outer ∈ vertices.filter fun vertex => ReflTransGen relation inner vertex :=
      included (Finset.mem_filter.mpr ⟨listed, .refl⟩)
    have back : ReflTransGen relation inner outer := (Finset.mem_filter.mp outerMember).2
    exact offCycle (TransGen.head' edge back)

/-- In a finite set in which every vertex has a successor, every vertex reaches a cycle. -/
theorem reachesCycle_of_successors
    (successor : ∀ vertex ∈ vertices, ∃ next ∈ vertices, relation vertex next)
    {start : α} (listed : start ∈ vertices) : ReachesCycle relation start := by
  induction count : reachCount relation vertices start using Nat.strong_induction_on
    generalizing start with
  | _ size ih =>
    by_cases cycle : TransGen relation start start
    · exact .of_onCycle cycle
    · obtain ⟨next, nextListed, edge⟩ := successor start listed
      have drops : reachCount relation vertices next < size :=
        count ▸ reachCount_lt_of_edge listed edge cycle
      exact (ih _ drops nextListed rfl).of_path (.single edge)

end Height

end DriverIdl
