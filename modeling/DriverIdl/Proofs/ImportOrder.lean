import DriverIdl.ImportGraph
import DriverIdl.Proofs.Reachability
import Mathlib.Data.List.Perm.Basic
import Mathlib.Data.List.Nodup

/-!
# The order of imports respects imports

Placing units one after another keeps four facts.  Placed, ready and waiting units are together the
given ones; the imports of a placed unit are placed before it; the imports of a ready unit are
placed; and the waiting units are exactly those that still lack an import.  When no unit is ready
any more, every unit left over lacks another unit left over, so all of them lead to a cycle, while
placed units cannot.
-/

namespace DriverIdl

open Relation

namespace ImportGraph

/-- The unit of one name imports the other name. -/
def Imports (units : List WaitingUnit) (importer imported : String) : Prop :=
  ∃ unit ∈ units, unit.name = importer ∧ imported ∈ unit.imports

/-- Imports form a map from names to sets of names: each name and each of its imports is listed
once, and every imported name is that of a unit. -/
structure ImportMap (units : List WaitingUnit) : Prop where
  names_nodup : (units.map WaitingUnit.name).Nodup
  imports_nodup : ∀ unit ∈ units, unit.imports.Nodup
  closed : ∀ unit ∈ units, ∀ imported ∈ unit.imports, imported ∈ units.map WaitingUnit.name

theorem ImportMap.imported_of_imports {units : List WaitingUnit} (valid : ImportMap units)
    {unit : WaitingUnit} (listed : unit ∈ units) {imported : String}
    (imports : Imports units unit.name imported) : imported ∈ unit.imports := by
  obtain ⟨other, otherListed, sameName, member⟩ := imports
  have same : other = unit :=
    List.inj_on_of_nodup_map valid.names_nodup otherListed listed sameName
  exact same ▸ member

/-- A unit with the imports it lacks once some units are placed. -/
def lacking (placed : List String) (unit : WaitingUnit) : WaitingUnit :=
  { unit with imports := unit.imports.filter fun imported => imported ∉ placed }

/-- The units that lack an import once some units are placed. -/
def blocked (units : List WaitingUnit) (placed : List String) : List WaitingUnit :=
  (units.map (lacking placed)).filter fun unit => !unit.imports.isEmpty

theorem lacking_nil : lacking [] = id := by
  funext unit
  simp [lacking]

theorem mem_lacking_imports {placed : List String} {unit : WaitingUnit} {imported : String} :
    imported ∈ (lacking placed unit).imports ↔ imported ∈ unit.imports ∧ imported ∉ placed := by
  simp [lacking]

/-- Crossing off one more placed unit is lacking what the longer list does not hold. -/
theorem without_lacking {placed : List String} {unit : WaitingUnit} (nodup : unit.imports.Nodup)
    (name : String) : (lacking placed unit).without name = lacking (placed ++ [name]) unit := by
  have crossed : (lacking placed unit).imports.erase name =
      (lacking (placed ++ [name]) unit).imports := by
    simp only [lacking]
    rw [List.Nodup.erase_eq_filter (nodup.filter _), List.filter_filter]
    congr 1
    funext imported
    apply Bool.eq_iff_iff.mpr
    simp [and_comm]
  simp only [WaitingUnit.without, crossed]
  rfl

theorem splitReady_eq (units : List WaitingUnit) :
    splitReady units = (units.filter fun unit => unit.imports.isEmpty,
      units.filter fun unit => !unit.imports.isEmpty) := by
  simp only [splitReady, List.partition_eq_filter_filter]
  rfl

theorem splitReady_perm (units : List WaitingUnit) :
    ((splitReady units).1 ++ (splitReady units).2).Perm units := by
  rw [splitReady_eq]
  exact List.filter_append_perm _ units

theorem advance_names_perm (name : String) (waiting : List WaitingUnit) :
    ((advance name waiting).1.map WaitingUnit.name ++
      (advance name waiting).2.map WaitingUnit.name).Perm (waiting.map WaitingUnit.name) := by
  have parts := (splitReady_perm (waiting.map fun unit => unit.without name)).map WaitingUnit.name
  rw [List.map_append, List.map_map] at parts
  exact parts

/-- Units that wait after one more is placed lack an import that is still not placed. -/
theorem advance_snd_blocked {units : List WaitingUnit} (valid : ImportMap units)
    (placed : List String) (name : String) :
    (advance name (blocked units placed)).2 = blocked units (placed ++ [name]) := by
  have crossed : (units.map (lacking (placed ++ [name]))) =
      (units.map (lacking placed)).map fun unit => unit.without name := by
    rw [List.map_map]
    apply List.map_congr_left
    intro unit listed
    exact (without_lacking (valid.imports_nodup unit listed) name).symm
  rw [advance, splitReady_eq, blocked, blocked, crossed]
  simp only [List.filter_map, List.filter_filter]
  congr 2
  apply List.filter_congr
  intro unit _
  cases empty : (lacking placed unit).imports with
  | nil => simp [WaitingUnit.without, empty]
  | cons => simp [empty]

/-- Units that become ready have all their imports placed. -/
theorem placed_of_mem_advance_fst {units : List WaitingUnit} (valid : ImportMap units)
    {placed : List String} {name : String} {unit : WaitingUnit}
    (becomesReady : unit ∈ (advance name (blocked units placed)).1) {imported : String}
    (imports : Imports units unit.name imported) : imported ∈ placed ++ [name] := by
  rw [advance, splitReady_eq] at becomesReady
  obtain ⟨crossed, empty⟩ := List.mem_filter.mp becomesReady
  obtain ⟨waiting, isBlocked, rfl⟩ := List.mem_map.mp crossed
  obtain ⟨given, listed, rfl⟩ := List.mem_map.mp (List.mem_filter.mp isBlocked).1
  have member : imported ∈ given.imports := valid.imported_of_imports listed imports
  rw [without_lacking (valid.imports_nodup given listed) name] at empty
  have noneLacking : imported ∉ (lacking (placed ++ [name]) given).imports := by
    rw [List.isEmpty_iff.mp empty]
    exact List.not_mem_nil
  by_contra missing
  exact noneLacking (mem_lacking_imports.mpr ⟨member, missing⟩)

/-- What placing units keeps. -/
structure Progress (units : List WaitingUnit) (placed : List String)
    (ready waiting : List WaitingUnit) : Prop where
  shares : (placed ++ (ready.map WaitingUnit.name ++ waiting.map WaitingUnit.name)).Perm
    (units.map WaitingUnit.name)
  grounded : Grounded (Imports units) (fun _ => True) placed.reverse
  ready_placed : ∀ unit ∈ ready, ∀ imported, Imports units unit.name imported → imported ∈ placed
  waiting_eq : waiting = blocked units placed

theorem Progress.start {units : List WaitingUnit} (valid : ImportMap units) :
    Progress units [] (splitReady units).1 (splitReady units).2 := by
  refine ⟨?_, trivial, ?_, ?_⟩
  · rw [List.nil_append, ← List.map_append]
    exact (splitReady_perm units).map WaitingUnit.name
  · intro unit isReady imported imports
    rw [splitReady_eq] at isReady
    obtain ⟨listed, empty⟩ := List.mem_filter.mp isReady
    have member := valid.imported_of_imports listed imports
    simp [List.isEmpty_iff.mp empty] at member
  · rw [splitReady_eq, blocked, lacking_nil, List.map_id]

theorem Progress.step {units : List WaitingUnit} (valid : ImportMap units) {placed : List String}
    {unit : WaitingUnit} {others waiting : List WaitingUnit}
    (progress : Progress units placed (unit :: others) waiting) :
    Progress units (placed ++ [unit.name]) (others ++ (advance unit.name waiting).1)
      (advance unit.name waiting).2 := by
  have blockedEq := progress.waiting_eq
  refine ⟨?_, ?_, ?_, ?_⟩
  · refine List.Perm.trans ?_ progress.shares
    have moved := advance_names_perm unit.name waiting
    simp only [List.map_append, List.map_cons, List.append_assoc, List.cons_append]
    exact ((moved.append_left _).cons _).append_left _
  · rw [List.reverse_append, List.reverse_singleton, List.singleton_append]
    refine ⟨?_, progress.grounded⟩
    intro imported imports _
    exact List.mem_reverse.mpr (progress.ready_placed unit List.mem_cons_self imported imports)
  · intro other isReady imported imports
    rcases List.mem_append.mp isReady with earlier | becomesReady
    · exact List.mem_append_left _
        (progress.ready_placed other (List.mem_cons_of_mem _ earlier) imported imports)
    · exact placed_of_mem_advance_fst valid (blockedEq ▸ becomesReady) imports
  · rw [blockedEq]
    exact advance_snd_blocked valid placed unit.name

theorem Progress.run {units : List WaitingUnit} (valid : ImportMap units) {placed : List String}
    {ready waiting : List WaitingUnit} (progress : Progress units placed ready waiting) :
    Progress units (place placed ready waiting).1 [] (place placed ready waiting).2 := by
  fun_induction place placed ready waiting with
  | case1 placed waiting => exact progress
  | case2 placed waiting unit others ih => exact ih (progress.step valid)

section Finished

variable {units waiting : List WaitingUnit} {placed : List String}

/-- The names left over stand in the order in which they were given. -/
theorem Progress.leftOver_sublist (progress : Progress units placed [] waiting) :
    (waiting.map WaitingUnit.name).Sublist (units.map WaitingUnit.name) := by
  rw [progress.waiting_eq, blocked]
  have kept : ((units.map (lacking placed)).filter fun unit => !unit.imports.isEmpty).Sublist
      (units.map (lacking placed)) := List.filter_sublist
  have keptNames := kept.map WaitingUnit.name
  rwa [List.map_map] at keptNames

theorem Progress.mem_placed_or_leftOver (progress : Progress units placed [] waiting)
    {name : String} (listed : name ∈ units.map WaitingUnit.name) :
    name ∈ placed ∨ name ∈ waiting.map WaitingUnit.name := by
  have member := progress.shares.mem_iff.mpr listed
  simpa using member

theorem Progress.not_reachesCycle_of_placed (progress : Progress units placed [] waiting)
    {name : String} (isPlaced : name ∈ placed) : ¬ReachesCycle (Imports units) name :=
  progress.grounded.not_reachesCycle (fun _ _ => trivial) (List.mem_reverse.mpr isPlaced)

/-- A unit left over lacks another one that is left over. -/
theorem Progress.exists_leftOver_import (valid : ImportMap units)
    (progress : Progress units placed [] waiting) {name : String}
    (leftOver : name ∈ waiting.map WaitingUnit.name) :
    ∃ imported ∈ waiting.map WaitingUnit.name, Imports units name imported := by
  obtain ⟨unit, isWaiting, rfl⟩ := List.mem_map.mp leftOver
  rw [progress.waiting_eq] at isWaiting
  obtain ⟨crossed, nonempty⟩ := List.mem_filter.mp isWaiting
  obtain ⟨given, listed, rfl⟩ := List.mem_map.mp crossed
  obtain ⟨imported, lacks⟩ := List.exists_mem_of_ne_nil _ (by simpa using nonempty)
  obtain ⟨member, notPlaced⟩ := mem_lacking_imports.mp lacks
  have isName := valid.closed given listed imported member
  exact ⟨imported, (progress.mem_placed_or_leftOver isName).resolve_left notPlaced,
    given, listed, rfl, member⟩

theorem Progress.mem_leftOver_iff (valid : ImportMap units)
    (progress : Progress units placed [] waiting) (name : String) :
    name ∈ waiting.map WaitingUnit.name ↔
      name ∈ units.map WaitingUnit.name ∧ ReachesCycle (Imports units) name := by
  constructor
  · intro leftOver
    refine ⟨progress.leftOver_sublist.subset leftOver, ?_⟩
    have successor : ∀ importer ∈ (waiting.map WaitingUnit.name).toFinset,
        ∃ imported ∈ (waiting.map WaitingUnit.name).toFinset, Imports units importer imported := by
      intro importer listed
      obtain ⟨imported, alsoLeft, imports⟩ :=
        progress.exists_leftOver_import valid (List.mem_toFinset.mp listed)
      exact ⟨imported, List.mem_toFinset.mpr alsoLeft, imports⟩
    exact reachesCycle_of_successors successor (List.mem_toFinset.mpr leftOver)
  · rintro ⟨listed, reaches⟩
    refine (progress.mem_placed_or_leftOver listed).resolve_left ?_
    intro isPlaced
    exact progress.not_reachesCycle_of_placed isPlaced reaches

/-- The imports of a placed unit stand before it. -/
theorem Progress.imports_before (progress : Progress units placed [] waiting)
    {before after : List String} {name imported : String} (split : placed = before ++ name :: after)
    (imports : Imports units name imported) : imported ∈ before := by
  have grounded := progress.grounded
  rw [split, List.reverse_append, List.reverse_cons, List.append_assoc] at grounded
  clear split
  generalize after.reverse = behind at grounded
  induction behind with
  | nil => exact List.mem_reverse.mp (grounded.1 imported imports trivial)
  | cons latest rest ih => exact ih grounded.2

theorem Progress.leftOver_eq_nil_iff (valid : ImportMap units)
    (progress : Progress units placed [] waiting) :
    waiting = [] ↔ ∀ name, ¬TransGen (Imports units) name name := by
  constructor
  · intro empty name cycle
    obtain ⟨imported, ⟨unit, listed, rfl, _⟩, _⟩ :=
      (ReachesCycle.of_onCycle cycle).exists_successor
    have leftOver := (progress.mem_leftOver_iff valid unit.name).mpr
      ⟨List.mem_map_of_mem listed, .of_onCycle cycle⟩
    simp [empty] at leftOver
  · intro acyclic
    apply List.eq_nil_iff_forall_not_mem.mpr
    intro unit isWaiting
    obtain ⟨-, name, -, cycle⟩ :=
      (progress.mem_leftOver_iff valid unit.name).mp (List.mem_map_of_mem isWaiting)
    exact acyclic name cycle

end Finished

/-- The outcome of ordering units, in terms of what could be placed and what is left over. -/
theorem order_eq {units waiting : List WaitingUnit} {placed : List String}
    (placing : place [] (splitReady units).1 (splitReady units).2 = (placed, waiting)) :
    order units =
      if waiting = [] then .ok placed else .error (waiting.map WaitingUnit.name) := by
  simp only [order, placing]
  cases waiting with
  | nil => rfl
  | cons unit rest => simp

/-- Units are put into an order exactly if their imports have no cycle.  The order is a permutation
in which every unit comes after all it imports.  Otherwise the report lists, each once and in the
given order, the units that lie on a cycle or lead to one. -/
theorem order_respects_imports (units : List WaitingUnit) (valid : ImportMap units) :
    ((∃ names, order units = .ok names) ↔ ∀ name, ¬TransGen (Imports units) name name) ∧
    (∀ names, order units = .ok names →
      names.Perm (units.map WaitingUnit.name) ∧
      ∀ before name after, names = before ++ name :: after →
        ∀ imported, Imports units name imported → imported ∈ before) ∧
    ∀ names, order units = .error names →
      names.Nodup ∧ names.Sublist (units.map WaitingUnit.name) ∧
      ∀ name, name ∈ names ↔
        name ∈ units.map WaitingUnit.name ∧ ReachesCycle (Imports units) name := by
  rcases placing : place [] (splitReady units).1 (splitReady units).2 with ⟨placed, waiting⟩
  have progress : Progress units placed [] waiting := by
    simpa only [placing] using (Progress.start valid).run valid
  rw [order_eq placing, ← progress.leftOver_eq_nil_iff valid]
  by_cases empty : waiting = []
  · simp only [empty]
    refine ⟨by simp, ?_, by simp⟩
    rintro names ⟨⟩
    refine ⟨by simpa [empty] using progress.shares, ?_⟩
    intro before name after split imported imports
    exact progress.imports_before split imports
  · simp only [empty]
    refine ⟨by simp, by simp, ?_⟩
    rintro names ⟨⟩
    have kept := progress.leftOver_sublist
    exact ⟨kept.nodup valid.names_nodup, kept, progress.mem_leftOver_iff valid⟩

/-- Two units that import each other, one that imports them, and two that do not. -/
def circle : List WaitingUnit :=
  [⟨"a", ["b"]⟩, ⟨"b", ["d", "a"]⟩, ⟨"c", ["e", "b"]⟩, ⟨"d", []⟩, ⟨"e", ["d"]⟩]

theorem circle_importMap : ImportMap circle :=
  ⟨by decide, by decide, by decide⟩

theorem order_respects_imports_circle :
    ImportMap circle ∧ order circle = .error ["a", "b", "c"] ∧
      ReachesCycle (Imports circle) "c" ∧ ¬ReachesCycle (Imports circle) "e" := by
  have report : order circle = .error ["a", "b", "c"] := by decide +kernel
  obtain ⟨-, -, exact⟩ := order_respects_imports circle circle_importMap
  obtain ⟨-, -, reported⟩ := exact _ report
  refine ⟨circle_importMap, report, ?_, ?_⟩
  · exact ((reported "c").mp (by decide)).2
  · intro reaches
    have listed := (reported "e").mpr ⟨by decide, reaches⟩
    exact absurd listed (by decide)

end ImportGraph

end DriverIdl
