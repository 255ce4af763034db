import DriverIdl.Proofs.Containment.Graph

/-!
# The search for types that contain themselves

The search keeps a path of active types and a list of done ones.  Three facts carry it.  A search
that finds nothing gives the path back as it was.  Every active type leads to the type being
visited, so an active type that is met again lies on a cycle.  A type becomes done only after all
structs and unions in it, so done types reach no cycle.  Faults end the search below one root; the
path is then given up, and later finds are still real.
-/

namespace DriverIdl

open Relation

namespace Containment

variable {arena : TypeArena}

section Following

variable {follow other : TypeId → Marks → Option TypeId × Marks}

/-- A search that gives the path back whenever it finds nothing. -/
def KeepsPath (follow : TypeId → Marks → Option TypeId × Marks) : Prop :=
  ∀ id marks after, follow id marks = (none, after) → after.active = marks.active

theorem followMembers_cons_none {member : Member} {rest : List Member} {marks after : Marks}
    (run : followMembers follow (member :: rest) marks = (none, after)) :
    ∃ middle, follow member.type marks = (none, middle) ∧
      followMembers follow rest middle = (none, after) := by
  rw [followMembers] at run
  split at run
  · simp at run
  · exact ⟨_, by assumption, run⟩

theorem active_of_followMembers_none (keeps : KeepsPath follow) {members : List Member}
    {marks after : Marks} (run : followMembers follow members marks = (none, after)) :
    after.active = marks.active := by
  induction members generalizing marks with
  | nil =>
      simp only [followMembers, Prod.mk.injEq, true_and] at run
      rw [run]
  | cons member rest ih =>
      obtain ⟨middle, first, later⟩ := followMembers_cons_none run
      rw [ih later, keeps _ _ _ first]

/-- A find below some members is a find below one of them, on the same path. -/
theorem followMembers_some (keeps : KeepsPath follow) {members : List Member} {marks after : Marks}
    {culprit : TypeId} (run : followMembers follow members marks = (some culprit, after)) :
    ∃ member ∈ members, ∃ before, before.active = marks.active ∧
      follow member.type before = (some culprit, after) := by
  induction members generalizing marks with
  | nil => simp [followMembers] at run
  | cons member rest ih =>
      rw [followMembers] at run
      split at run
      · rename_i found left first
        exact ⟨member, by simp, marks, rfl, by rw [first, run]⟩
      · rename_i middle first
        obtain ⟨later, listed, before, sameActive, found⟩ := ih run
        exact ⟨later, by simp [listed], before, by rw [sameActive, keeps _ _ _ first], found⟩

end Following

section Steps

variable {depth : Nat} {id culprit : TypeId} {marks after : Marks}

/-- A visit that finds nothing meets a type without members or a done type, or leaves the type done
after its members. -/
theorem visit_succ_none (run : visit arena (depth + 1) id marks = (none, after)) :
    (arena.record? id = none ∨ id ∈ marks.done) ∧ after = marks ∨
      ∃ record walked, arena.record? id = some record ∧ id ∉ marks.active ∧
        followMembers (visit arena depth) record.members ⟨id :: marks.active, marks.done⟩ =
          (none, walked) ∧
        after = ⟨walked.active.erase id, id :: walked.done⟩ := by
  rw [visit] at run
  split at run
  · rename_i noRecord
    exact .inl ⟨.inl noRecord, by simpa using run.symm⟩
  · rename_i record found
    split at run
    · simp at run
    · rename_i notActive
      split at run
      · rename_i isDone
        exact .inl ⟨.inr (by simpa using isDone), by simpa using run.symm⟩
      · dsimp only at run
        split at run
        · simp at run
        · rename_i walked walk
          exact .inr ⟨record, walked, found, by simpa using notActive, walk,
            by simpa using run.symm⟩

/-- A visit that finds a type meets it on the path, or finds it below a member. -/
theorem visit_succ_some (run : visit arena (depth + 1) id marks = (some culprit, after)) :
    culprit = id ∧ id ∈ marks.active ∨
      ∃ record, arena.record? id = some record ∧
        followMembers (visit arena depth) record.members ⟨id :: marks.active, marks.done⟩ =
          (some culprit, after) := by
  rw [visit] at run
  split at run
  · simp at run
  · rename_i record found
    split at run
    · rename_i isActive
      simp only [Prod.mk.injEq, Option.some.injEq] at run
      exact .inl ⟨run.1.symm, by simpa using isActive⟩
    · split at run
      · simp at run
      · dsimp only at run
        split at run
        · rename_i walk
          exact .inr ⟨record, found, by rw [walk, run]⟩
        · simp at run

theorem visit_keepsPath (arena : TypeArena) (depth : Nat) : KeepsPath (visit arena depth) := by
  induction depth with
  | zero =>
      intro id marks after run
      simp only [visit, Prod.mk.injEq, true_and] at run
      rw [run]
  | succ depth ih =>
      intro id marks after run
      rcases visit_succ_none run with ⟨-, rfl⟩ | ⟨record, walked, -, -, walk, rfl⟩
      · rfl
      · have path : walked.active = id :: marks.active := active_of_followMembers_none ih walk
        simp [path]

end Steps

/-- A found type lies on a cycle, if every active type leads to the visited one. -/
theorem onCycle_of_visit_some {depth : Nat} {id culprit : TypeId} {marks after : Marks}
    (leads : ∀ outer ∈ marks.active, TransGen arena.Contains outer id)
    (run : visit arena depth id marks = (some culprit, after)) :
    ReflTransGen arena.Contains id culprit ∧ TransGen arena.Contains culprit culprit := by
  induction depth generalizing id marks with
  | zero => simp [visit] at run
  | succ depth ih =>
      rcases visit_succ_some run with ⟨rfl, isActive⟩ | ⟨record, found, walk⟩
      · exact ⟨.refl, leads culprit isActive⟩
      · obtain ⟨member, listed, before, sameActive, foundBelow⟩ :=
          followMembers_some (visit_keepsPath arena depth) walk
        have edge := TypeArena.Contains.of_member found listed
        have leadsBelow : ∀ outer ∈ before.active, TransGen arena.Contains outer member.type := by
          intro outer isActive
          rw [sameActive] at isActive
          rcases List.mem_cons.mp isActive with rfl | earlier
          · exact .single edge
          · exact (leads outer earlier).tail edge
        obtain ⟨path, cycle⟩ := ih leadsBelow foundBelow
        exact ⟨path.head edge, cycle⟩

/-- Types in the order in which they became done, latest first: the structs and unions in a type
come behind it. -/
def Settled (arena : TypeArena) (done : List TypeId) : Prop :=
  Grounded arena.Contains (fun id => (arena.record? id).isSome) done

theorem record?_isSome_of_reachesCycle (id : TypeId) (reaches : ReachesCycle arena.Contains id) :
    (arena.record? id).isSome := by
  obtain ⟨next, ⟨record, found, -⟩, -⟩ := reaches.exists_successor
  rw [found]
  rfl

theorem Settled.not_reachesCycle {done : List TypeId} (settled : Settled arena done) {id : TypeId}
    (listed : id ∈ done) : ¬ReachesCycle arena.Contains id :=
  Grounded.not_reachesCycle record?_isSome_of_reachesCycle settled listed

/-- The path holds each of its types once, and the levels left suffice for all other types. -/
structure PathFits (arena : TypeArena) (depth : Nat) (active : List TypeId) : Prop where
  nodup : active.Nodup
  inArena : ∀ id ∈ active, id < arena.size
  enough : arena.size < depth + active.length

namespace PathFits

variable {depth : Nat} {active : List TypeId}

theorem start (enough : arena.size < depth) : PathFits arena depth [] :=
  ⟨List.nodup_nil, by simp, by simpa using enough⟩

theorem depth_pos (fits : PathFits arena depth active) : 0 < depth := by
  have included : active ⊆ List.range arena.size := fun id isActive =>
    List.mem_range.mpr (fits.inArena id isActive)
  have short := (List.subperm_of_subset fits.nodup included).length_le
  have enough := fits.enough
  rw [List.length_range] at short
  omega

theorem enter {id : TypeId} {record : RecordType} (fits : PathFits arena (depth + 1) active)
    (fresh : id ∉ active) (found : arena.record? id = some record) :
    PathFits arena depth (id :: active) := by
  refine ⟨List.nodup_cons.mpr ⟨fresh, fits.nodup⟩, ?_, ?_⟩
  · intro other isActive
    rcases List.mem_cons.mp isActive with rfl | earlier
    · exact TypeArena.lt_size_of_record? found
    · exact fits.inArena other earlier
  · have enough := fits.enough
    rw [List.length_cons]
    omega

end PathFits

/-- What a search that finds nothing leaves behind. -/
structure Quiet (arena : TypeArena) (marks after : Marks) : Prop where
  keeps : marks.done ⊆ after.done
  settled : Settled arena marks.done → Settled arena after.done

theorem Quiet.refl (marks : Marks) : Quiet arena marks marks :=
  ⟨List.Subset.refl _, fun settled => settled⟩

theorem Quiet.trans {first second third : Marks} (early : Quiet arena first second)
    (late : Quiet arena second third) : Quiet arena first third :=
  ⟨List.Subset.trans early.keeps late.keeps, fun settled => late.settled (early.settled settled)⟩

theorem quiet_of_followMembers_none {follow : TypeId → Marks → Option TypeId × Marks}
    (keeps : KeepsPath follow) {members : List Member} {marks after : Marks}
    (quiet : ∀ member ∈ members, ∀ before left : Marks, before.active = marks.active →
      follow member.type before = (none, left) →
        Quiet arena before left ∧ ((arena.record? member.type).isSome → member.type ∈ left.done))
    (run : followMembers follow members marks = (none, after)) :
    Quiet arena marks after ∧
      ∀ member ∈ members, (arena.record? member.type).isSome → member.type ∈ after.done := by
  induction members generalizing marks with
  | nil =>
      simp only [followMembers, Prod.mk.injEq, true_and] at run
      subst run
      exact ⟨.refl _, by simp⟩
  | cons member rest ih =>
      obtain ⟨middle, first, later⟩ := followMembers_cons_none run
      obtain ⟨firstQuiet, firstDone⟩ := quiet member (by simp) marks middle rfl first
      obtain ⟨restQuiet, restDone⟩ := ih
        (fun other listed before left sameActive => quiet other (by simp [listed]) before left
          (by rw [sameActive, keeps _ _ _ first])) later
      refine ⟨firstQuiet.trans restQuiet, ?_⟩
      intro other listed isRecord
      rcases List.mem_cons.mp listed with rfl | behind
      · exact restQuiet.keeps (firstDone isRecord)
      · exact restDone other behind isRecord

/-- A visit that finds nothing leaves the type done, behind everything in it. -/
theorem quiet_of_visit_none {depth : Nat} {id : TypeId} {marks after : Marks}
    (fits : PathFits arena depth marks.active)
    (run : visit arena depth id marks = (none, after)) :
    Quiet arena marks after ∧ ((arena.record? id).isSome → id ∈ after.done) := by
  induction depth generalizing id marks after with
  | zero => exact absurd fits.depth_pos (Nat.lt_irrefl 0)
  | succ depth ih =>
      rcases visit_succ_none run with ⟨leaf, rfl⟩ | ⟨record, walked, found, fresh, walk, rfl⟩
      · refine ⟨.refl _, fun isRecord => ?_⟩
        rcases leaf with noRecord | isDone
        · simp [noRecord] at isRecord
        · exact isDone
      · have entered := fits.enter fresh found
        obtain ⟨walkQuiet, membersDone⟩ := quiet_of_followMembers_none
          (visit_keepsPath arena depth)
          (fun member _ before left sameActive run => ih (sameActive ▸ entered) run) walk
        refine ⟨⟨fun other isDone => List.mem_cons_of_mem _ (walkQuiet.keeps isDone), ?_⟩,
          fun _ => List.mem_cons_self⟩
        intro settled
        refine ⟨?_, walkQuiet.settled settled⟩
        rintro inner ⟨other, foundOther, member, listed, rfl⟩ isRecord
        obtain rfl : record = other := Option.some.inj (found.symm.trans foundOther)
        exact membersDone member listed isRecord

end Containment

end DriverIdl
