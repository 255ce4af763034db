import DriverIdl.Proofs.Parsing.Moves

/-!
# Which faults a production reports

A production reports faults of a certain sort only, from whatever state it is run and also if it
leaves, and does not rename the unit: `Reports`.  A production that goes by moves reports what the
moves do, so the productions behind the header report no fault of the header; in particular they
never complain about an import.
-/

namespace DriverIdl

namespace ParseState

variable {sort : SourceFault → Prop} {before middle after : ParseState}

/-- Between two states tokens were taken from the front, only faults of a sort were reported, and the
unit kept its names. -/
structure Reported (sort : SourceFault → Prop) (before after : ParseState) : Prop where
  tokens : after.tokens <:+ before.tokens
  package : after.unit.package = before.unit.package
  name : after.unit.name = before.unit.name
  faults : ∃ found, after.diagnostics = before.diagnostics ++ found ∧
    ∀ diagnostic ∈ found, sort diagnostic.fault
  counted : after.diagnostics = before.diagnostics → after.errors = before.errors

namespace Reported

theorem of_eq (tokens : after.tokens <:+ before.tokens)
    (package : after.unit.package = before.unit.package)
    (name : after.unit.name = before.unit.name) (same : after.diagnostics = before.diagnostics)
    (count : after.errors = before.errors) : Reported sort before after :=
  ⟨tokens, package, name, ⟨[], by simp [same], by simp⟩, fun _ => count⟩

theorem refl (state : ParseState) : Reported sort state state :=
  of_eq (List.suffix_refl _) rfl rfl rfl rfl

/-- Counting a round reports nothing. -/
theorem inRound (state : ParseState) : Reported sort state state.counted :=
  of_eq (List.suffix_refl _) rfl rfl rfl rfl

theorem trans (first : Reported sort before middle) (second : Reported sort middle after) :
    Reported sort before after := by
  obtain ⟨early, grown, ofSort⟩ := first.faults
  obtain ⟨late, grownToo, ofSortToo⟩ := second.faults
  refine ⟨second.tokens.trans first.tokens, second.package.trans first.package,
    second.name.trans first.name, ⟨early ++ late, ?_, ?_⟩, fun same => ?_⟩
  · rw [grownToo, grown, List.append_assoc]
  · intro diagnostic listed
    exact (List.mem_append.mp listed).elim (ofSort diagnostic) (ofSortToo diagnostic)
  · obtain ⟨rfl, rfl⟩ : early = [] ∧ late = [] := by
      rw [grownToo, grown, List.append_assoc] at same
      simpa using same
    rw [List.append_nil] at grown grownToo
    exact (second.counted grownToo).trans (first.counted grown)

theorem one {place : Position} {fault : SourceFault} (ofSort : sort fault)
    (tokens : after.tokens <:+ before.tokens)
    (package : after.unit.package = before.unit.package)
    (name : after.unit.name = before.unit.name)
    (grown : after.diagnostics = before.diagnostics ++ [⟨before.unit.path, place, fault⟩]) :
    Reported sort before after :=
  ⟨tokens, package, name, ⟨_, grown, by simpa using ofSort⟩, fun same => by simp [grown] at same⟩

/-- A fault of another sort was there before. -/
theorem mem_of_not (reported : Reported sort before after) {diagnostic : Diagnostic}
    (listed : diagnostic ∈ after.diagnostics) (other : ¬sort diagnostic.fault) :
    diagnostic ∈ before.diagnostics := by
  obtain ⟨found, grown, ofSort⟩ := reported.faults
  rw [grown] at listed
  exact (List.mem_append.mp listed).resolve_right fun isNew => other (ofSort diagnostic isNew)

instance : IsPreorder ParseState (Reported sort) where
  refl := refl
  trans _ _ _ := trans

/-- No move renames the unit. -/
theorem of_move (move : Move sort before after) : Reported sort before after := by
  cases move with
  | take suffix => exact .of_eq suffix rfl rfl rfl rfl
  | report ofSort => exact .one ofSort (List.suffix_refl _) rfl rfl rfl
  | @intern key node denotes =>
      have named : (before.unit.intern before.program.types key node).2.1.package =
            before.unit.package ∧
          (before.unit.intern before.program.types key node).2.1.name = before.unit.name := by
        unfold CompiledUnit.intern
        split <;> exact ⟨rfl, rfl⟩
      exact .of_eq (List.suffix_refl _) named.1 named.2 rfl rfl
  | _ => exact .of_eq (List.suffix_refl _) rfl rfl rfl rfl

theorem of_moves (moves : Moves sort before after) : Reported sort before after := by
  induction moves with
  | refl => exact .refl before
  | tail _ move reported => exact reported.trans (.of_move move)

end Reported

end ParseState

namespace Parse

open ParseState

variable {α : Type} {sort : SourceFault → Prop}

/-- Every run of a production reports faults of a sort only and keeps the names of the unit. -/
abbrev Reports (sort : SourceFault → Prop) (production : Parse α) : Prop :=
  Runs (Reported sort) production

namespace Reports

/-- A production that goes by moves reports what they report. -/
theorem of_moves {production : Parse α} (runs : Runs (Moves sort) production) :
    Reports sort production := fun before => .of_moves (runs before)

/-- The declarations behind the header report no fault of the header. -/
theorem declarations {options : Options} :
    Reports SourceFault.OfBody (Parse.declarations options) := of_moves Runs.declarations

section Finish

open SourceFault

theorem settleKind : Reports OfBody settleKind := by
  intro before
  rcases settleKind_run before with ⟨fault, whole, reported⟩ | ⟨-, passed⟩
  · have ofBody : fault.OfBody := by
      unfold wholeFault? at whole
      split at whole <;> split at whole <;> cases whole <;> rfl
    rw [stateAfter, reported]
    exact .one ofBody (List.suffix_refl _) rfl rfl rfl
  · rw [stateAfter, passed]
    exact .of_eq (List.suffix_refl _) rfl rfl rfl rfl

theorem verifyUnit : Reports OfBody verifyUnit := by
  intro before
  have opened : Parse.verifyUnit before =
      if before.errors == 0 then
        .ok () { before with
          diagnostics := before.diagnostics ++ Containment.verify before.types before.unit
          errors := if (before.diagnostics ++ Containment.verify before.types before.unit).length ==
            before.diagnostics.length then 0 else 1 }
      else .ok () before := by
    simp only [Parse.verifyUnit, Bind.bind, EStateM.bind, get_run]
    split <;> rfl
  rw [stateAfter, opened]
  by_cases clean : (before.errors == 0) = true
  · rw [if_pos clean]
    refine ⟨List.suffix_refl _, rfl, rfl, ⟨_, rfl, fun diagnostic listed => ?_⟩, fun same => ?_⟩
    · rcases fault_of_mem_verify listed with ⟨_, isFault⟩ | ⟨_, _, _, isFault⟩ <;>
        rw [isFault] <;> rfl
    · have noError : before.errors = 0 := beq_iff_eq.mp clean
      have sameLength := congrArg List.length same
      simp only at sameLength ⊢
      rw [if_pos (beq_iff_eq.mpr sameLength), noError]
  · rw [if_neg clean]
    exact .refl before

theorem finishUnit : Reports OfBody finishUnit := by
  refine .bind settleKind fun _ => .bind verifyUnit fun _ => .bind .get fun _ => .ite ?_ (.pure _)
  refine .bind (.bind .get fun _ => .bind ?_ fun _ => .changes fun _ => ?_) fun _ => .pure _
  · apply Runs.forM
    intro entry before
    obtain ⟨namespaces, run, -⟩ := publishSequenceable_run entry before
    rw [stateAfter_ok run]
    exact .of_eq (List.suffix_refl _) rfl rfl rfl rfl
  · exact .of_eq (List.suffix_refl _) rfl rfl rfl rfl

end Finish

end Reports

end Parse

end DriverIdl
