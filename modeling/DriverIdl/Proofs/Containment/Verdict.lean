import DriverIdl.Proofs.Containment.Spelling
import DriverIdl.Proofs.Containment.Walks

/-!
# What the containment check decides

A unit passes exactly if no cycle of containment can be reached from its definitions and the members
of its unions are plain data.  Marks are shared between the roots, so the statements about a list of
roots are inductions over it: as long as nothing is found the done types stay settled, and once
something is found the verdict is decided.
-/

namespace DriverIdl

open Relation

namespace Containment

variable {arena : TypeArena}

section Roots

variable {depth : Nat} {roots : List TypeId} {marks : Marks}

/-- Every reported type lies on a cycle below one of the roots. -/
theorem onCycle_of_mem_selfContainingWithin (pathEmpty : marks.active = []) {culprit : TypeId}
    (reported : culprit ∈ selfContainingWithin arena depth roots marks) :
    TransGen arena.Contains culprit culprit ∧
      ∃ root ∈ roots, ReflTransGen arena.Contains root culprit := by
  induction roots generalizing marks with
  | nil => simp [selfContainingWithin] at reported
  | cons root rest ih =>
      have lift : (TransGen arena.Contains culprit culprit ∧
          ∃ other ∈ rest, ReflTransGen arena.Contains other culprit) →
          TransGen arena.Contains culprit culprit ∧
            ∃ other ∈ root :: rest, ReflTransGen arena.Contains other culprit := by
        rintro ⟨cycle, other, listed, path⟩
        exact ⟨cycle, other, by simp [listed], path⟩
      rw [selfContainingWithin] at reported
      split at reported
      · rename_i found after run
        rcases List.mem_cons.mp reported with rfl | later
        · obtain ⟨path, cycle⟩ := onCycle_of_visit_some (by simp [pathEmpty]) run
          exact ⟨cycle, root, by simp, path⟩
        · exact lift (ih rfl later)
      · rename_i after run
        exact lift (ih (by rw [visit_keepsPath _ _ _ _ _ run, pathEmpty]) reported)

/-- A search that reports nothing has seen that no root reaches a cycle. -/
theorem not_reachesCycle_of_selfContainingWithin_eq_nil (enough : arena.size < depth)
    (pathEmpty : marks.active = []) (settled : Settled arena marks.done)
    (quiet : selfContainingWithin arena depth roots marks = []) :
    ∀ root ∈ roots, ¬ReachesCycle arena.Contains root := by
  induction roots generalizing marks with
  | nil => simp
  | cons root rest ih =>
      rw [selfContainingWithin] at quiet
      split at quiet
      · simp at quiet
      · rename_i after run
        have fits : PathFits arena depth marks.active := pathEmpty ▸ .start enough
        obtain ⟨left, rootDone⟩ := quiet_of_visit_none fits run
        intro other listed
        rcases List.mem_cons.mp listed with rfl | behind
        · intro reaches
          have isDone := rootDone (record?_isSome_of_reachesCycle _ reaches)
          exact (left.settled settled).not_reachesCycle isDone reaches
        · exact ih (by rw [visit_keepsPath _ _ _ _ _ run, pathEmpty]) (left.settled settled) quiet
            other behind

theorem selfContainingWithin_eq_nil_iff (enough : arena.size < depth) :
    selfContainingWithin arena depth roots {} = [] ↔
      ∀ root ∈ roots, ¬ReachesCycle arena.Contains root := by
  constructor
  · exact not_reachesCycle_of_selfContainingWithin_eq_nil enough rfl trivial
  · intro offCycle
    apply List.eq_nil_iff_forall_not_mem.mpr
    intro culprit reported
    obtain ⟨cycle, root, listed, path⟩ := onCycle_of_mem_selfContainingWithin rfl reported
    exact offCycle root listed ⟨culprit, path, cycle⟩

end Roots

section Faults

variable {definitions : List TypeId}

theorem nestingFaults_eq_nil_iff :
    nestingFaults arena definitions = [] ↔
      ∀ root ∈ definitions, ¬ReachesCycle arena.Contains root := by
  rw [← selfContainingWithin_eq_nil_iff (Nat.lt_succ_self arena.size), nestingFaults,
    List.filterMap_eq_nil_iff]
  constructor
  · intro unnamed
    apply List.eq_nil_iff_forall_not_mem.mpr
    intro culprit reported
    obtain ⟨cycle, -⟩ := onCycle_of_mem_selfContainingWithin rfl reported
    have isRecord := record?_isSome_of_reachesCycle _ (.of_onCycle cycle)
    have missing := Option.map_eq_none_iff.mp (unnamed culprit reported)
    simp [missing] at isRecord
  · intro quiet culprit reported
    rw [selfContaining, quiet] at reported
    simp at reported

theorem unionFaults_eq_nil_iff :
    unionFaults arena definitions = [] ↔
      ∀ root ∈ definitions, ∀ record, arena.node root = .union record →
        ∀ member ∈ record.members, (arena.fixedSize? member.type).isSome := by
  simp only [unionFaults, List.flatMap_eq_nil_iff]
  apply forall₂_congr
  intro root listed
  split
  · rename_i record isUnion
    simp [isUnion, Option.isSome_iff_ne_none]
  · rename_i notUnion
    simpa using fun record isUnion => absurd isUnion (notUnion record)

theorem faults_eq_nil_iff :
    faults arena definitions = [] ↔
      nestingFaults arena definitions = [] ∧ unionFaults arena definitions = [] := by
  rw [faults]
  split
  · rename_i quiet
    simp [quiet]
  · rename_i found
    exact ⟨fun quiet => (found quiet).elim, And.left⟩

end Faults

end Containment

end DriverIdl
