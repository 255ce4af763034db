import DriverIdl.Proofs.Grammar.Basic
import DriverIdl.Proofs.Parsing.Moves
import DriverIdl.Proofs.Program.Reachable

/-!
# What a program takes for an integer

An enum is stored as an integer, and whether a type is one is looked up in the types of the program.
In a program that comes from parsing only the primitive types with integer words are integers.  A
program that was put together otherwise may know an integer by a name, which a file makes visible by
announcing it as a sequenceable, and then the name is the base of an enum like any integer type.
`TakesIntegers` says which texts a state takes for integers; reading a file adds none to them.
-/

namespace DriverIdl

/-- The type with a number is an integer. -/
def TypeArena.HoldsInteger (arena : TypeArena) (id : TypeId) : Prop :=
  ∃ primitive : Primitive, arena.node id = .primitive primitive ∧ primitive.isIntegral = true

/-- The types that a program takes for integers: the primitive types that are integers in it, and names
if a unit of it knows an integer by a name. -/
def Program.integerTypes (program : Program) : TokenLanguage :=
  {text |
    (∃ primitive, Grammar.primitive? text = some primitive ∧
      program.types.HoldsInteger primitive.id) ∨
    (text ∈ Grammar.dotted ∧ ∃ unit ∈ program.units, ∃ entry ∈ unit.table,
      entry.1.isNamed = true ∧ program.types.HoldsInteger entry.2)}

namespace TypeArena

variable {arena : TypeArena} {id : TypeId} {node : TypeNode}

theorem holdsInteger_of_primitive? {base : Primitive}
    (found : (arena.primitive? id).filter Primitive.isIntegral = some base) :
    arena.HoldsInteger id := by
  obtain ⟨isPrimitive, integral⟩ := Option.filter_eq_some_iff.mp found
  unfold primitive? at isPrimitive
  split at isPrimitive
  · rename_i primitive isNode
    cases isPrimitive
    exact ⟨base, isNode, integral⟩
  · cases isPrimitive

theorem holdsInteger_iff_of_outline {other : TypeArena}
    (same : (other.node id).outline = (arena.node id).outline) :
    other.HoldsInteger id ↔ arena.HoldsInteger id := by
  unfold HoldsInteger
  cases first : arena.node id <;> cases second : other.node id <;>
    simp_all [TypeNode.outline]

theorem HoldsInteger.lt_size (holds : arena.HoldsInteger id) : id < arena.size := by
  obtain ⟨primitive, found, integral⟩ := holds
  by_contra outside
  rw [node_of_size_le (Nat.le_of_not_lt outside)] at found
  cases found
  cases integral

/-- What is added is an integer only if it is added as one. -/
theorem HoldsInteger.of_alloc (other : ∀ primitive, node ≠ .primitive primitive)
    (holds : (arena.alloc node).2.HoldsInteger id) : arena.HoldsInteger id := by
  have bounded : id < arena.size + 1 := by simpa using holds.lt_size
  obtain ⟨primitive, found, integral⟩ := holds
  rcases Nat.lt_succ_iff_lt_or_eq.mp bounded with inside | rfl
  · rw [node_alloc_of_lt inside] at found
    exact ⟨primitive, found, integral⟩
  · rw [node_alloc_size] at found
    exact absurd found (other primitive)

/-- A change in place that keeps outlines changes no integer. -/
theorem holdsInteger_update {changed : TypeId} {change : TypeNode → TypeNode}
    (keeps : ∀ node, (change node).outline = node.outline) :
    (arena.update changed change).HoldsInteger id ↔ arena.HoldsInteger id := by
  apply holdsInteger_iff_of_outline
  rcases Nat.lt_or_ge id arena.size with inside | outside
  · exact (Extends.update arena changed keeps).outline_eq id inside
  · rw [node_of_size_le outside, node_of_size_le (by simpa using outside)]

/-- A type with a key that is not that of a primitive type is no integer. -/
theorem not_holdsInteger_of_denotes {key : TypeKey} (denotes : key.Denotes (arena.node id))
    (other : key.isComposite = true ∨ key.isNamed = true) : ¬arena.HoldsInteger id := by
  rintro ⟨primitive, found, -⟩
  exact denotes.ne_primitive other primitive found

end TypeArena

namespace Grammar

variable {text : List TokenKind} {primitive : Primitive}

theorem mem_integerType_iff :
    text ∈ integerType ↔ ∃ primitive, primitive? text = some primitive ∧
      primitive.isIntegral = true := by
  constructor
  · rintro (⟨kind, listed, rfl⟩ | isUnsigned)
    · have spells : ∀ kind ∈ [TokenKind.byte, .char, .short, .int, .long],
          (primitive? [kind]).any Primitive.isIntegral = true := by decide
      simpa [Option.any_eq_true] using spells kind listed
    · obtain ⟨_, rfl, _, ⟨kind, listed, rfl⟩, rfl⟩ := Language.mem_mul.mp isUnsigned
      have spells : ∀ kind ∈ unsignedWords,
          (primitive? [.unsigned, kind]).any Primitive.isIntegral = true := by decide
      simpa [Option.any_eq_true] using spells kind listed
  · rintro ⟨primitive, spelled, integral⟩
    unfold primitive? at spelled
    split at spelled
    all_goals cases spelled
    all_goals first
      | exact absurd integral (by decide)
      | exact .inl ⟨_, by decide, rfl⟩
      | exact .inr (cons_mem_word_mul ⟨_, by decide, rfl⟩)

end Grammar

namespace Program

end Program

namespace ParseState

variable {integers : TokenLanguage} {before after : ParseState}

/-- The texts of the types that are integers in a state are among some texts: the texts of primitive
types, and if a name stands for an integer in the unit or in a unit of the program, all names. -/
structure TakesIntegers (integers : TokenLanguage) (state : ParseState) : Prop where
  primitive : ∀ text primitive, Grammar.primitive? text = some primitive →
    state.types.HoldsInteger primitive.id → text ∈ integers
  table : ∀ entry ∈ state.unit.table, state.types.HoldsInteger entry.2 →
    entry.1.isComposite = false ∧ (entry.1.isNamed = true → Grammar.dotted ≤ integers)
  units : ∀ unit ∈ state.program.units, ∀ entry ∈ unit.table, entry.1.isNamed = true →
    state.types.HoldsInteger entry.2 → Grammar.dotted ≤ integers

/-- No text is taken for an integer later that was not before. -/
def KeepsIntegers (before after : ParseState) : Prop :=
  ∀ integers, before.TakesIntegers integers → after.TakesIntegers integers

namespace TakesIntegers

variable (takes : before.TakesIntegers integers)

include takes

/-- The units are the same, no type has become an integer, and what is new in the table is none, but
for what another unit has under a name. -/
theorem grow {added : List (TypeKey × TypeId)} (units : after.program.units = before.program.units)
    (types : ∀ id, after.types.HoldsInteger id → before.types.HoldsInteger id)
    (table : after.unit.table = before.unit.table ++ added)
    (new : ∀ entry ∈ added, before.types.HoldsInteger entry.2 → entry.1.isNamed = true ∧
      ∃ unit ∈ before.program.units, entry ∈ unit.table) : after.TakesIntegers integers where
  primitive text primitive spelled holds := takes.primitive text primitive spelled (types _ holds)
  table entry listed holds := by
    rw [table] at listed
    rcases List.mem_append.mp listed with early | late
    · exact takes.table entry early (types _ holds)
    · obtain ⟨isNamed, unit, isUnit, inTable⟩ := new entry late (types _ holds)
      refine ⟨?_, fun _ => takes.units unit isUnit entry inTable isNamed (types _ holds)⟩
      cases composite : entry.1.isComposite with
      | false => rfl
      | true => exact absurd isNamed (by simp [TypeKey.isNamed_of_isComposite composite])
  units unit listed entry inTable isNamed holds :=
    takes.units unit (units ▸ listed) entry inTable isNamed (types _ holds)

theorem withType {key : TypeKey} {node : TypeNode}
    (other : key.isComposite = true ∨ key.isNamed = true) (denotes : key.Denotes node) :
    (before.withType key node).TakesIntegers integers := by
  refine takes.grow rfl (fun id => .of_alloc (denotes.ne_primitive other)) rfl ?_
  intro entry listed holds
  rw [List.mem_singleton.mp listed] at holds
  exact absurd holds.lt_size (Nat.lt_irrefl _)

end TakesIntegers

/-- A state that knows the types of a sound program takes the integer words for integers. -/
theorem Sound.takesIntegers (sound : before.Sound) :
    before.TakesIntegers Grammar.integerType where
  primitive text primitive spelled holds := by
    simp only [TypeArena.HoldsInteger, sound.types.node_primitive, TypeNode.primitive.injEq,
      exists_eq_left'] at holds
    exact Grammar.mem_integerType_iff.mpr ⟨primitive, spelled, holds⟩
  table entry listed holds := by
    obtain ⟨-, denotes⟩ := sound.table entry listed
    have primitive := mt fun other => TypeArena.not_holdsInteger_of_denotes denotes other
    obtain ⟨notComposite, notNamed⟩ := not_or.mp (primitive (not_not.mpr holds))
    exact ⟨eq_false_of_ne_true notComposite, fun isNamed => absurd isNamed notNamed⟩
  units unit listed entry inTable isNamed holds := by
    obtain ⟨-, denotes⟩ := sound.units unit listed entry inTable
    exact absurd holds (TypeArena.not_holdsInteger_of_denotes denotes (.inr isNamed))

/-- Declarations add no integers. -/
instance : AdmitsMembers SourceFault.OfBody KeepsIntegers where
  refl _ _ takes := takes
  trans _ _ _ first second integers takes := second integers (first integers takes)
  take _ _ takes := { takes with }
  report _ _ takes := { takes with }
  intern {before key node} other denotes integers takes := by
    rw [interned, CompiledUnit.intern]
    cases before.unit.visibleType? key with
    | some known => exact { takes with }
    | none => exact takes.withType other denotes
  note _ takes := { takes with }
  amend keeps _ takes :=
    takes.grow rfl (fun _ => (TypeArena.holdsInteger_update keeps).mp) (List.append_nil _).symm nofun

end ParseState

namespace Parse

open ParseState

namespace Runs

/-- What is imported has a name of its own, so that it is no integer. -/
theorem keepsIntegers_importUnit (name : String) (place : Position) :
    Runs KeepsIntegers (Parse.importUnit name place) := by
  intro before
  rcases importUnit_cases name place before with ⟨fault, -, run⟩ | ⟨id, after, run, imports⟩
  · rw [stateAfter_ok run]
    exact fun _ takes => { takes with }
  · rw [stateAfter_ok run]
    intro integers takes
    obtain ⟨added, table, keys⟩ := imports.table
    refine takes.grow (by rw [imports.state]) (fun type => ?_) table fun entry listed holds => ?_
    · rw [imports.types]
      cases (unitAt before id).interface with
      | none => exact fun holds => holds
      | some marked => exact (TypeArena.holdsInteger_update markSerializable_outline).mp
    · obtain ⟨namespaceId, short, isNamed, denotes⟩ := namedKey?_eq_some.mp (keys entry listed).2
      refine absurd holds (TypeArena.not_holdsInteger_of_denotes denotes (.inr ?_))
      rw [isNamed]
      rfl

/-- A sequenceable is a type of its own, unless a unit knows a type by its name. -/
theorem keepsIntegers_declareSequenceable (full : String) (place : Position) :
    Runs KeepsIntegers (Parse.declareSequenceable full place) := by
  intro before
  rcases declareSequenceable_cases full place before with ⟨fault, -, run⟩
    | ⟨package, name, after, run, ⟨id, type, shares⟩ | adds⟩
  · rw [stateAfter_ok run]
    exact fun _ takes => { takes with }
  · rw [stateAfter_ok run]
    intro integers takes
    obtain ⟨added, table, keys⟩ := shares.table
    refine takes.grow (by rw [shares.state]) (fun _ => ?_) table fun entry listed _ => ?_
    · rw [shares.types]
      exact fun holds => holds
    · rw [keys entry listed]
      exact ⟨rfl, _, (unitAt_mem shares.found).1,
        CompiledUnit.mem_table_of_visibleType? shares.visible⟩
  · rw [stateAfter_ok run]
    intro integers takes
    obtain ⟨added, table, keys⟩ := adds.table
    refine takes.grow (by rw [adds.state]) (fun _ => ?_) table fun entry listed holds => ?_
    · rw [adds.types]
      exact .of_alloc nofun
    · rw [keys entry listed] at holds
      exact absurd holds.lt_size (Nat.lt_irrefl _)

theorem keepsIntegers_report (place : Position) (fault : SourceFault) :
    Runs KeepsIntegers (Parse.report place fault) := fun _ _ takes => { takes with }

theorem keepsIntegers_announcement (keyword : TokenKind) (word expected : String) :
    Runs KeepsIntegers (Parse.announcement keyword word expected) :=
  announcement ofBody_unexpected keyword word expected

theorem keepsIntegers_enterPackage (options : Options) (package : String) (place : Position) :
    Runs KeepsIntegers (enterPackage options package place) := by
  refine bind get fun state => ?_
  split
  · exact changes fun _ _ takes => { takes with }
  · exact bind (keepsIntegers_report _ _) fun _ => changes fun _ _ takes => { takes with }

theorem keepsIntegers_packageStatement (options : Options) :
    Runs KeepsIntegers (packageStatement options) := by
  refine bind (keepsIntegers_announcement _ _ _) fun ⟨package, place⟩ => ?_
  dsimp only
  split
  · exact bind (changes fun _ _ takes => { takes with }) fun _ => keepsIntegers_enterPackage _ _ _
  · exact bind (keepsIntegers_report _ _) fun _ => keepsIntegers_enterPackage _ _ _

theorem keepsIntegers_headerStatements : Runs KeepsIntegers headerStatements := by
  have statement {production : Parse Unit} (keeps : Runs KeepsIntegers production) :
      Runs KeepsIntegers (do
        if (← Parse.attempt production).isNone then Parse.recoverStatement
        return (.inl () : Unit ⊕ Unit)) :=
    bind keeps.attempt fun _ => ite (bind recoverStatement fun _ => pure _) (pure _)
  refine loop fun _ => bind peek fun token => ?_
  split
  · exact statement <| bind (keepsIntegers_announcement _ _ _) fun _ => keepsIntegers_importUnit _ _
  · exact statement <| bind (keepsIntegers_announcement _ _ _) fun _ =>
      keepsIntegers_declareSequenceable _ _
  · exact pure (Sum.inr ())

end Runs

end Parse

end DriverIdl
