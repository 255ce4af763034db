import DriverIdl.Emit.Frame.Java
import DriverIdl.Emit.Marshalling.C
import DriverIdl.Emit.Marshalling.Cpp
import DriverIdl.Proofs.Containment.Spelling
import DriverIdl.Proofs.Program.Containers
import DriverIdl.Proofs.Program.Invariant

/-!
# Levels of types

Types are spelled, written, read and released from the outside in, for a number of levels that is one
more than there are types.  In a program that parsing built these levels are never used up.  An
element has a smaller number than its container, and a member nests less deep than its struct, so two
functions that take the same step at each type agree wherever there are levels enough, whatever they
answer without levels.
-/

namespace DriverIdl

section Walks

variable {α : Type} {inside : TypeId → TypeId → Prop}

/-- Two walks through types take the same step: with a level more they agree at a type, if they agree
at the types in it.  What they answer without levels is left open. -/
def StepsAlike (inside : TypeId → TypeId → Prop) (first second : Nat → TypeId → α) : Prop :=
  ∀ levels more type, (∀ inner, inside type inner → first levels inner = second more inner) →
    first (levels + 1) type = second (more + 1) type

/-- Walks that take the same step agree if both have more levels than a height that drops with each
step. -/
theorem StepsAlike.eq {first second : Nat → TypeId → α} (alike : StepsAlike inside first second)
    {height : TypeId → Nat}
    (drops : ∀ {outer inner}, inside outer inner → height inner < height outer) {levels more : Nat}
    {type : TypeId} (enough : height type < levels) (enoughToo : height type < more) :
    first levels type = second more type := by
  induction levels generalizing more type with
  | zero => exact absurd enough (Nat.not_lt_zero _)
  | succ levels ih =>
      obtain ⟨more, rfl⟩ := Nat.exists_eq_succ_of_ne_zero (Nat.ne_zero_of_lt enoughToo)
      apply alike
      intro inner within
      have lower := drops within
      exact ih (by omega) (by omega)

/-- A level for each type, and one more, suffice for a walk: each walk that takes the same step gives
the same answer with these levels or more, whatever it answers without levels. -/
structure LevelsSuffice (arena : TypeArena) (inside : TypeId → TypeId → Prop)
    (walk : Nat → TypeId → α) : Prop where
  steps : StepsAlike inside walk walk
  reached : ∀ other, StepsAlike inside other walk → ∀ levels type, arena.size < levels →
    other levels type = walk (arena.size + 1) type

variable {arena : TypeArena} {walk : Nat → TypeId → α}

theorem LevelsSuffice.of_height (steps : StepsAlike inside walk walk) {height : TypeId → Nat}
    (drops : ∀ {outer inner}, inside outer inner → height inner < height outer)
    (bounded : ∀ type, height type ≤ arena.size) : LevelsSuffice arena inside walk where
  steps := steps
  reached other alike levels type enough := by
    have height_le := bounded type
    exact alike.eq drops (by omega) (Nat.lt_succ_of_le height_le)

theorem TypeArena.ElementsFirst.levelsSuffice (elementsFirst : arena.ElementsFirst)
    (steps : StepsAlike arena.HoldsElement walk walk) :
    LevelsSuffice arena arena.HoldsElement walk := by
  refine @LevelsSuffice.of_height _ _ _ _ steps (fun type => min type arena.size) ?_ ?_
  · intro outer inner holds
    have smaller : inner < outer := elementsFirst outer inner holds
    have bounded : outer < arena.size := holds.outer_lt_size
    exact Nat.lt_of_le_of_lt (Nat.min_le_left inner arena.size)
      (Nat.lt_min.mpr ⟨smaller, Nat.lt_trans smaller bounded⟩)
  · exact fun type => Nat.min_le_right _ _

theorem TypeArena.Acyclic.levelsSuffice (acyclic : arena.Acyclic)
    (steps : StepsAlike arena.Contains walk walk) : LevelsSuffice arena arena.Contains walk :=
  .of_height steps (fun contains =>
    TypeArena.nesting_lt_of_contains contains (acyclic.not_reachesCycle _)) arena.nesting_le_size

end Walks

theorem TypeArena.spellWithin_stepsAlike (arena : TypeArena) :
    StepsAlike arena.HoldsElement arena.spellWithin arena.spellWithin := by
  intro levels more type same
  rw [spellWithin_eq_spellRule, spellWithin_eq_spellRule]
  exact spellRule_congr same

namespace CCode

variable (types : TypeArena) (recovery : Recovery) (buffer : String)

theorem typeWithin_stepsAlike :
    StepsAlike types.HoldsElement (typeWithin types) (typeWithin types) := by
  intro levels more type same
  rw [typeWithin, typeWithin]
  cases node : types.node type with
  | array element | list element => simp only [same element (.single node rfl)]
  | _ => rfl

theorem writeWithin_stepsAlike :
    StepsAlike types.HoldsElement (writeWithin types recovery buffer)
      (writeWithin types recovery buffer) := by
  intro levels more type same
  funext value length depth
  rw [writeWithin, writeWithin]
  cases node : types.node type with
  | array element | list element => simp only [same element (.single node rfl)]
  | primitive primitive => cases primitive <;> rfl
  | _ => rfl

theorem readWithin_stepsAlike :
    StepsAlike types.HoldsElement (readWithin types recovery buffer)
      (readWithin types recovery buffer) := by
  intro levels more type same
  funext target length depth
  rw [readWithin, readWithin]
  cases node : types.node type with
  | array element | list element => simp only [same element (.single node rfl)]
  | primitive primitive => cases primitive <;> rfl
  | _ => rfl

theorem releaseWithin_stepsAlike :
    StepsAlike types.HoldsElement (releaseWithin types) (releaseWithin types) := by
  intro levels more type same
  funext target length depth
  rw [releaseWithin, releaseWithin]
  cases node : types.node type with
  | array element | list element => simp only [same element (.single node rfl)]
  | primitive primitive => cases primitive <;> rfl
  | _ => rfl

theorem ownsWithin_stepsAlike :
    StepsAlike types.Contains (ownsWithin types) (ownsWithin types) := by
  intro levels more type same
  rw [ownsWithin, ownsWithin]
  cases node : types.node type with
  | struct record =>
      have members : ∀ member ∈ record.members,
          ownsWithin types levels member.type = ownsWithin types more member.type :=
        fun member listed => same _ (.of_member (TypeArena.record?_of_struct node) listed)
      rw [Bool.eq_iff_iff]
      simp only [List.any_eq_true]
      exact exists_congr fun member => and_congr_right fun listed => by rw [members member listed]
  | primitive primitive => cases primitive <;> rfl
  | _ => rfl

end CCode

namespace CppCode

variable (context : EmitContext) (leave parcel : String)

theorem typeWithin_stepsAlike :
    StepsAlike context.types.HoldsElement (typeWithin context) (typeWithin context) := by
  intro levels more type same
  rw [typeWithin, typeWithin]
  cases node : context.types.node type with
  | array element | list element | queue element => simp only [same element (.single node rfl)]
  | map key value =>
      have entry := TypeArena.HoldsElement.entry node
      simp only [same key entry.1, same value entry.2]
  | _ => rfl

theorem writeWithin_stepsAlike :
    StepsAlike context.types.HoldsElement (writeWithin context leave parcel)
      (writeWithin context leave parcel) := by
  intro levels more type same
  funext value depth
  rw [writeWithin, writeWithin]
  cases node : context.types.node type with
  | array element | list element => simp only [same element (.single node rfl)]
  | map key mapped =>
      have entry := TypeArena.HoldsElement.entry node
      simp only [same key entry.1, same mapped entry.2]
  | primitive primitive => cases primitive <;> rfl
  | _ => rfl

theorem readWithin_stepsAlike :
    StepsAlike context.types.HoldsElement (readWithin context leave parcel)
      (readWithin context leave parcel) := by
  intro levels more type same
  funext target depth
  rw [readWithin, readWithin]
  cases node : context.types.node type with
  | array element | list element => simp only [same element (.single node rfl)]
  | map key value =>
      have entry := TypeArena.HoldsElement.entry node
      simp only [same key entry.1, same value entry.2]
  | primitive primitive => cases primitive <;> rfl
  | _ => rfl

end CppCode

namespace JavaCode

variable (context : EmitContext) (leave parcel : String)

theorem typeWithin_stepsAlike :
    StepsAlike context.types.HoldsElement (fun levels type boxed => typeWithin context levels boxed type)
      (fun levels type boxed => typeWithin context levels boxed type) := by
  intro levels more type same
  funext boxed
  have within (inner : TypeId) (holds : context.types.HoldsElement type inner) (boxed : Bool) :
      typeWithin context levels boxed inner = typeWithin context more boxed inner :=
    congrFun (same inner holds) boxed
  simp only [typeWithin]
  cases node : context.types.node type with
  | array element | list element => simp only [within element (.single node rfl)]
  | map key value =>
      have entry := TypeArena.HoldsElement.entry node
      simp only [within key entry.1, within value entry.2]
  | _ => rfl

theorem writeWithin_stepsAlike :
    StepsAlike context.types.HoldsElement (writeWithin context parcel)
      (writeWithin context parcel) := by
  intro levels more type same
  funext value depth
  rw [writeWithin, writeWithin]
  cases node : context.types.node type with
  | array element | list element => simp only [same element (.single node rfl)]
  | map key mapped =>
      have entry := TypeArena.HoldsElement.entry node
      simp only [same key entry.1, same mapped entry.2]
  | _ => rfl

theorem readWithin_stepsAlike :
    StepsAlike context.types.HoldsElement (readWithin context leave parcel)
      (readWithin context leave parcel) := by
  intro levels more type same
  funext target depth
  rw [readWithin, readWithin]
  cases node : context.types.node type with
  | array element | list element => simp only [same element (.single node rfl)]
  | map key value =>
      have entry := TypeArena.HoldsElement.entry node
      simp only [same key entry.1, same value entry.2]
  | _ => rfl

theorem mentionedWithin_stepsAlike :
    StepsAlike context.types.HoldsElement (mentionedWithin context) (mentionedWithin context) := by
  intro levels more type same
  rw [mentionedWithin, mentionedWithin]
  cases node : context.types.node type with
  | array element | list element | queue element => simp only [same element (.single node rfl)]
  | map key value =>
      have entry := TypeArena.HoldsElement.entry node
      simp only [same key entry.1, same value entry.2]
  | primitive primitive => cases primitive <;> rfl
  | _ => rfl

end JavaCode

/-- All walks of the emitters have levels enough: those that spell types, those that write, read and
release values, and those that look for what a value owns or what a file has to import. -/
structure EmitContext.WalksEnd (context : EmitContext) : Prop where
  spelling : LevelsSuffice context.types context.types.HoldsElement
    context.types.spellWithin
  cType : LevelsSuffice context.types context.types.HoldsElement
    (CCode.typeWithin context.types)
  cWrite : ∀ recovery buffer, LevelsSuffice context.types context.types.HoldsElement
    (CCode.writeWithin context.types recovery buffer)
  cRead : ∀ recovery buffer, LevelsSuffice context.types context.types.HoldsElement
    (CCode.readWithin context.types recovery buffer)
  cRelease : LevelsSuffice context.types context.types.HoldsElement
    (CCode.releaseWithin context.types)
  cOwns : LevelsSuffice context.types context.types.Contains
    (CCode.ownsWithin context.types)
  cppType : LevelsSuffice context.types context.types.HoldsElement
    (CppCode.typeWithin context)
  cppWrite : ∀ leave parcel, LevelsSuffice context.types context.types.HoldsElement
    (CppCode.writeWithin context leave parcel)
  cppRead : ∀ leave parcel, LevelsSuffice context.types context.types.HoldsElement
    (CppCode.readWithin context leave parcel)
  javaType : LevelsSuffice context.types context.types.HoldsElement
    fun levels type boxed => JavaCode.typeWithin context levels boxed type
  javaWrite : ∀ parcel, LevelsSuffice context.types context.types.HoldsElement
    (JavaCode.writeWithin context parcel)
  javaRead : ∀ leave parcel, LevelsSuffice context.types context.types.HoldsElement
    (JavaCode.readWithin context leave parcel)
  javaImports : LevelsSuffice context.types context.types.HoldsElement
    (JavaCode.mentionedWithin context)

/-- In a program that parsing built, the levels that the emitters start with are never used up. -/
theorem Program.Reachable.walksEnd {context : EmitContext}
    (reachable : context.program.Reachable) : context.WalksEnd := by
  have elementsFirst : context.types.ElementsFirst := reachable.elementsFirst
  have acyclic : context.types.Acyclic := reachable.coherent.acyclic
  exact {
    spelling := elementsFirst.levelsSuffice context.types.spellWithin_stepsAlike
    cType := elementsFirst.levelsSuffice (CCode.typeWithin_stepsAlike _)
    cWrite := fun _ _ => elementsFirst.levelsSuffice (CCode.writeWithin_stepsAlike _ _ _)
    cRead := fun _ _ => elementsFirst.levelsSuffice (CCode.readWithin_stepsAlike _ _ _)
    cRelease := elementsFirst.levelsSuffice (CCode.releaseWithin_stepsAlike _)
    cOwns := acyclic.levelsSuffice (CCode.ownsWithin_stepsAlike _)
    cppType := elementsFirst.levelsSuffice (CppCode.typeWithin_stepsAlike context)
    cppWrite := fun _ _ => elementsFirst.levelsSuffice (CppCode.writeWithin_stepsAlike context _ _)
    cppRead := fun _ _ => elementsFirst.levelsSuffice (CppCode.readWithin_stepsAlike context _ _)
    javaType := elementsFirst.levelsSuffice (JavaCode.typeWithin_stepsAlike context)
    javaWrite := fun _ => elementsFirst.levelsSuffice (JavaCode.writeWithin_stepsAlike context _)
    javaRead := fun _ _ => elementsFirst.levelsSuffice (JavaCode.readWithin_stepsAlike context _ _)
    javaImports := elementsFirst.levelsSuffice (JavaCode.mentionedWithin_stepsAlike context) }

end DriverIdl
