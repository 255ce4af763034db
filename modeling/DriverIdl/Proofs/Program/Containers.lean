import DriverIdl.Proofs.Program.SupportMatrix

/-!
# Containers of a program

A container is read after its elements and keeps them, so the numbers of types fall from a container
to its elements, and a walk from element to element ends.
-/

namespace DriverIdl

open Parse Relation

namespace TypeArena

variable {options : Options} {mark : Nat} {arena before after : TypeArena} {outer inner : TypeId}

/-- Containers stand behind what they hold. -/
def ElementsFirst (arena : TypeArena) : Prop :=
  ∀ outer inner, arena.HoldsElement outer inner → inner < outer

theorem ElementsFirst.initial : ElementsFirst {} := by
  intro outer inner holds
  rcases Nat.lt_or_ge outer Primitive.all.length with inside | outside
  · have noElements : ∀ index < Primitive.all.length,
        (({} : TypeArena).node index).elements = [] := by decide
    rw [HoldsElement, noElements outer inside] at holds
    cases holds
  · exact absurd holds.outer_lt_size (Nat.not_lt.mpr outside)

/-- Only a new container is to be looked at. -/
theorem Extends.elementsFirst (grown : before.Extends after) (first : before.ElementsFirst)
    (new : ∀ outer inner, before.size ≤ outer → after.HoldsElement outer inner → inner < outer) :
    after.ElementsFirst := by
  intro outer inner holds
  rcases Nat.lt_or_ge outer before.size with inside | outside
  · exact first outer inner ((grown.holdsElement_iff inside).mp holds)
  · exact new outer inner outside holds

theorem Change.elementsFirst (change : Change options mark before after)
    (first : before.ElementsFirst) : after.ElementsFirst := by
  apply change.grown.elementsFirst first
  intro outer inner outside holds
  cases change with
  | add addable =>
      have inside := holds.outer_lt_size
      rw [size_alloc] at inside
      obtain rfl : outer = before.size := Nat.le_antisymm (Nat.le_of_lt_succ inside) outside
      have part := holds.mem_parts
      rw [node_alloc_size] at part
      exact (addable.own inner part).inside
  | fill _ | mark _ =>
      have inside := holds.outer_lt_size
      rw [size_update] at inside
      exact absurd inside (Nat.not_lt.mpr outside)

theorem Builds.elementsFirst (builds : Builds options mark before after)
    (first : before.ElementsFirst) : after.ElementsFirst := by
  induction builds with
  | refl => exact first
  | tail _ change ih => exact change.elementsFirst ih

/-- An array that the type is, or that stands in it. -/
def HoldsArray (arena : TypeArena) (type : TypeId) : Prop :=
  ∃ array element, ReflTransGen arena.HoldsElement type array ∧ arena.node array = .array element

theorem HoldsArray.of_array {element : TypeId} (isArray : arena.node outer = .array element) :
    arena.HoldsArray outer :=
  ⟨outer, element, .refl, isArray⟩

/-- A type other than an array holds one exactly if an element does. -/
theorem holdsArray_iff_of_ne (notArray : ∀ element, arena.node outer ≠ .array element) :
    arena.HoldsArray outer ↔ ∃ inner ∈ (arena.node outer).elements, arena.HoldsArray inner := by
  constructor
  · rintro ⟨array, element, path, isArray⟩
    rcases ReflTransGen.cases_head path with rfl | ⟨inner, holds, rest⟩
    · exact absurd isArray (notArray element)
    · exact ⟨inner, holds, array, element, rest, isArray⟩
  · rintro ⟨inner, holds, array, element, path, isArray⟩
    exact ⟨array, element, .head holds path, isArray⟩

/-- Arrays stacked on a type that is none. -/
inductive StacksArrays (arena : TypeArena) : Nat → TypeId → TypeId → Prop where
  | innermost {type : TypeId} (notArray : ∀ element, arena.node type ≠ .array element) :
      StacksArrays arena 0 type type
  | array {dimensions : Nat} {type element innermost : TypeId}
      (isArray : arena.node type = .array element)
      (rest : StacksArrays arena dimensions element innermost) :
      StacksArrays arena (dimensions + 1) type innermost

theorem StacksArrays.unique {dimensions others : Nat} {type innermost other : TypeId}
    (stacked : arena.StacksArrays dimensions type innermost)
    (again : arena.StacksArrays others type other) : dimensions = others ∧ innermost = other := by
  induction stacked generalizing others with
  | innermost notArray =>
      cases again with
      | innermost _ => exact ⟨rfl, rfl⟩
      | array isArray _ => exact absurd isArray (notArray _)
  | array isArray _ ih =>
      cases again with
      | innermost notArray => exact absurd isArray (notArray _)
      | array isArrayToo rest =>
          obtain rfl : _ = _ := TypeNode.array.inj (isArray.symm.trans isArrayToo)
          obtain ⟨rfl, rfl⟩ := ih rest
          exact ⟨rfl, rfl⟩

end TypeArena

namespace Program

variable {program : Program}

theorem Reachable.elementsFirst (reachable : program.Reachable) : program.types.ElementsFirst := by
  induction reachable with
  | empty => exact .initial
  | parse options diagnostics path source reachable ih =>
      obtain ⟨read, advanced, rejects | accepts⟩ :=
        parseSource_cases reachable.wellFormed options diagnostics path source
      · obtain ⟨size, nodes⟩ := rejects.types advanced reachable.wellFormed.types
        have keeps : TypeArena.KeepsNodes _ _ :=
          ⟨Nat.le_of_eq size.symm, fun id below => (nodes id below).imp_right And.right⟩
        refine keeps.toExtends.elementsFirst ih fun outer inner outside holds => ?_
        exact absurd (size ▸ holds.outer_lt_size) (Nat.not_lt.mpr outside)
      · rw [accepts.types_eq]
        exact accepts.built.builds.elementsFirst ih

end Program

end DriverIdl
