import DriverIdl.Model.CompiledUnit
import Mathlib.Data.List.Basic

/-!
# Units by name

A name is found at the first unit that has it.  Units are only added behind others, so what is found
stays where it is.
-/

namespace DriverIdl

namespace Program

variable {program : Program} {name : String} {id : UnitId}

theorem find?_eq_some (found : program.find? name = some id) :
    ∃ unit, program.units[id]? = some unit ∧ unit.fullName = name := by
  obtain ⟨inside, same, -⟩ := Array.findIdx?_eq_some_iff_getElem.mp found
  exact ⟨program.units[id], Array.getElem?_eq_getElem inside, by simpa using same⟩

theorem find?_eq_none : program.find? name = none ↔ ∀ unit ∈ program.units, unit.fullName ≠ name := by
  simp [find?, Array.findIdx?_eq_none_iff]

/-- A name that is found stays found when units are added. -/
theorem find?_of_units {after : Program} {added : Array CompiledUnit}
    (units : after.units = program.units ++ added) (found : program.find? name = some id) :
    after.find? name = some id := by
  rw [find?, units, Array.findIdx?_append]
  rw [find?] at found
  rw [found]
  rfl

theorem getElem?_of_units {after : Program} {added : Array CompiledUnit} {unit : CompiledUnit}
    (units : after.units = program.units ++ added) (present : program.units[id]? = some unit) :
    after.units[id]? = some unit := by
  obtain ⟨inside, same⟩ := Array.getElem?_eq_some_iff.mp present
  rw [units, Array.getElem?_append_left inside, present]

/-- A unit is added unless its name is known. -/
theorem add_cases (program : Program) (unit : CompiledUnit) :
    (∃ id, program.find? unit.fullName = some id ∧ program.add unit = (id, program)) ∨
      (program.find? unit.fullName = none ∧
        program.add unit =
          (program.units.size, { program with units := program.units.push unit })) := by
  unfold add
  cases program.find? unit.fullName with
  | some id => exact .inl ⟨id, rfl, rfl⟩
  | none => exact .inr ⟨rfl, rfl⟩

theorem find?_push_self {unit : CompiledUnit} (absent : program.find? unit.fullName = none) :
    ({ program with units := program.units.push unit } : Program).find? unit.fullName =
      some program.units.size := by
  rw [find?] at absent ⊢
  rw [Array.push_eq_append, Array.findIdx?_append, absent]
  simp

/-- Whether a unit is added or known already, its name is found afterwards. -/
theorem add_spec (program : Program) (unit : CompiledUnit) :
    (program.add unit).2 = { program with units := (program.add unit).2.units } ∧
      (∃ added, (program.add unit).2.units = program.units ++ added ∧
        ∀ other ∈ added, other = unit ∧ program.find? unit.fullName = none) ∧
      (program.add unit).2.find? unit.fullName = some (program.add unit).1 := by
  rcases program.add_cases unit with ⟨id, found, same⟩ | ⟨absent, pushed⟩
  · rw [same]
    exact ⟨rfl, ⟨#[], by simp, by simp⟩, found⟩
  · rw [pushed]
    exact ⟨rfl, ⟨#[unit], by simp, by simp [absent]⟩, find?_push_self absent⟩

end Program

end DriverIdl
