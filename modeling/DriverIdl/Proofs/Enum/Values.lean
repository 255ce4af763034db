import DriverIdl.Proofs.Enum.Arithmetic
import DriverIdl.Proofs.Program.Invariant
import DriverIdl.Proofs.Wire.FixedSize

/-!
# Values of enums

Every enum of a program was brought in by an accepted text, between the braces of which its members
stand with their values.  All values are in the range of the base, so each is written with the width
of the base and read back.
-/

namespace DriverIdl

open Parse

namespace Wire

open Parcel

/-- A value of an enum in a range is written with the bytes of its shape and read back. -/
structure Marshals (arena : TypeArena) (type : TypeId) (shape : IntShape) (number : Int)
    (bytes : List UInt8) : Prop where
  width : bytes.length = shape.bytes
  written : ∀ held : List UInt8,
    writeValue arena type (.enum number) held.toArray = .ok () (held ++ bytes).toArray
  read : ∀ before after, readValue arena type (.between before (bytes ++ after)) =
    .ok (.enum number) (.between (before ++ bytes) after)

theorem marshals_enum {arena : TypeArena} (acyclic : arena.Acyclic) {type : TypeId}
    {declared : EnumType} (node : arena.node type = .enum declared) {shape : IntShape}
    (shaped : declared.base.shape? = some shape) {number : Int} (low : shape.least ≤ number)
    (high : number ≤ shape.greatest) : ∃ bytes, Marshals arena type shape number bytes := by
  have range : declared.base.range? = some (shape.least, shape.greatest) := by
    rw [Primitive.range?, shaped, Option.map_some]
  obtain ⟨bytes, appends, reads⟩ := transfers_of_conforms acyclic (.enum node range low high)
  have sized : arena.fixedSize? type = some shape.bytes := by
    rw [TypeArena.fixedSize?_eq_sizeRule acyclic, TypeArena.sizeRule, node]
    exact Primitive.fixedSize?_of_shape? shaped
  exact ⟨bytes,
    { width := (spans_readValue acyclic sized).length_eq reads
      written := appends
      read := reads }⟩

end Wire

theorem TypeArena.initial_ne_enum (id : TypeId) (declared : EnumType) :
    ({} : TypeArena).node id ≠ .enum declared := by
  have unnamed : (({} : TypeArena).node id).declaration? = none := by
    rcases Nat.lt_or_ge id Primitive.all.length with inside | outside
    · have noDeclaration : ∀ index < Primitive.all.length,
          (({} : TypeArena).node index).declaration? = none := by decide
      exact noDeclaration id inside
    · rw [node_of_size_le outside]
      rfl
  intro isEnum
  rw [isEnum] at unnamed
  cases unnamed

namespace Program

variable {program : Program} {id : TypeId} {declared : EnumType}

/-- A text that was accepted has brought an enum into a program, and spells it. -/
structure IntroducesEnum (earlier : Program) (options : Options) (diagnostics : List Diagnostic)
    (path : Path) (source : String) (id : TypeId) (declared : EnumType) : Prop where
  reachable : earlier.Reachable
  accepted : (earlier.parseSource options diagnostics path source).accepted = true
  absent : ∀ known, earlier.types.node id ≠ .enum known
  present :
    (earlier.parseSource options diagnostics path source).program.types.node id = .enum declared
  text : EnumText (sourceTokens source) declared

/-- An enum that is there behind a text and was not before is spelled by the text, which was
accepted. -/
theorem WellFormed.new_enum (wellFormed : program.WellFormed) {options : Options}
    {diagnostics : List Diagnostic} {path : Path} {source : String}
    (absent : ∀ known, program.types.node id ≠ .enum known)
    (present : (program.parseSource options diagnostics path source).program.types.node id =
      .enum declared) :
    (program.parseSource options diagnostics path source).accepted = true ∧
      EnumFromText options (sourceTokens source) declared := by
  have grown := wellFormed.types_extends options diagnostics path source
  obtain ⟨read, advanced, rejects | accepts⟩ :=
    parseSource_cases wellFormed options diagnostics path source
  · -- A refused text leaves no type behind.
    obtain ⟨size, -⟩ := rejects.types advanced wellFormed.types
    rcases Nat.lt_or_ge id program.types.size with inside | outside
    · exact absurd (grown.enum_eq inside present) (absent declared)
    · rw [TypeArena.node_of_size_le (by rw [size]; exact outside)] at present
      cases present
  · refine ⟨accepts.accepted, ?_⟩
    rw [accepts.types_eq] at present
    exact (accepts.built.enums id declared present).resolve_left (absent declared)

/-- Every enum of a program was brought in by a text that spells it, and it is proper. -/
theorem Reachable.introducedEnum (reachable : program.Reachable)
    (isEnum : program.types.node id = .enum declared) :
    (∃ earlier options diagnostics path source,
      IntroducesEnum earlier options diagnostics path source id declared) ∧ ProperEnum declared := by
  induction reachable with
  | empty => exact absurd isEnum (TypeArena.initial_ne_enum id declared)
  | @parse program options diagnostics path source reachable ih =>
      have wellFormed := reachable.wellFormed
      have grown := wellFormed.types_extends options diagnostics path source
      -- Either the last text brought the enum in, or an earlier one did.
      rcases Classical.em (program.types.node id = .enum declared) with early | late
      · exact ih early
      · have absent (known : EnumType) : program.types.node id ≠ .enum known := by
          intro found
          have inside : id < program.types.size := by
            by_contra outside
            rw [TypeArena.node_of_size_le (Nat.le_of_not_lt outside)] at found
            cases found
          exact late (grown.enum_eq inside isEnum)
        obtain ⟨accepted, fromText⟩ := wellFormed.new_enum absent isEnum
        obtain ⟨text, proper⟩ := fromText.spelled
        exact ⟨⟨program, options, diagnostics, path, source,
          ⟨reachable, accepted, absent, isEnum, text⟩⟩, proper⟩

/-- The values of enums are what source files say, and they can always be sent.  The members of every
enum of a program are those that the accepted text which brought it in spells between braces, with
the values that it tells; there is one at least, and no two share a name.  Each value is in the range
of the base, so it is written with exactly the width of the base and read back.  Nothing overflows
in integers of 128 bits while members are read, whatever the tokens. -/
theorem enum_values_are_spelled (program : Program) (reachable : program.Reachable) :
    (∀ id declared, program.types.node id = .enum declared →
      (∃ earlier options diagnostics path source,
        IntroducesEnum earlier options diagnostics path source id declared) ∧
      declared.members ≠ [] ∧ (declared.members.map EnumMember.name).Nodup ∧
      ∃ shape, declared.base.shape? = some shape ∧ ∀ member ∈ declared.members,
        shape.least ≤ member.value ∧ member.value ≤ shape.greatest ∧
          ∃ bytes, Wire.Marshals program.types id shape member.value bytes) ∧
    ∀ base, (enumMembers128 base).run = some <$> enumMembers base := by
  refine ⟨fun id declared isEnum => ?_, enumMembers128_run⟩
  obtain ⟨introduced, notEmpty, shape, shaped, distinct, inRange⟩ :=
    reachable.introducedEnum isEnum
  refine ⟨introduced, notEmpty, distinct, shape, shaped, fun member listed => ?_⟩
  obtain ⟨low, high⟩ := inRange member listed
  exact ⟨low, high, Wire.marshals_enum reachable.coherent.acyclic isEnum shaped low high⟩

/-- A file whose enum has values of all kinds: negated, following, hexadecimal, and one of an earlier
member. -/
def levelOutcome : ParseOutcome :=
  ({} : Program).parseSource {} [] ⟨"a/v1_0/Types.idl"⟩
    "package a.v1_0; enum Level : byte \x7b LOW = -3, MID, HIGH = 0x7F, TOP = HIGH, \x7d;"

/-- The enum of that file. -/
def level : EnumType :=
  ⟨"Level", 2, "Types", .byte,
    [⟨"LOW", -3, ⟨1, 37⟩⟩, ⟨"MID", -2, ⟨1, 47⟩⟩, ⟨"HIGH", 127, ⟨1, 52⟩⟩, ⟨"TOP", 127, ⟨1, 65⟩⟩], {},
    ⟨1, 22⟩⟩

theorem node_levelOutcome : levelOutcome.program.types.node 14 = .enum level := by
  decide +kernel

theorem enum_values_are_spelled_level :
    levelOutcome.program.Reachable ∧ levelOutcome.program.types.node 14 = .enum level ∧
      (∃ earlier options diagnostics path source,
        IntroducesEnum earlier options diagnostics path source 14 level) ∧
      ∃ bytes, bytes.length = 1 ∧
        Wire.writeValue levelOutcome.program.types 14 (.enum (-3)) #[7] =
          .ok () ([7] ++ bytes).toArray := by
  have reachable : levelOutcome.program.Reachable := .parse _ _ _ _ .empty
  obtain ⟨introduced, -, -, shape, shaped, values⟩ :=
    (enum_values_are_spelled levelOutcome.program reachable).1 14 level node_levelOutcome
  obtain ⟨-, -, bytes, marshals⟩ := values ⟨"LOW", -3, ⟨1, 37⟩⟩ (by decide)
  obtain rfl : IntShape.i8 = shape := Option.some.inj shaped
  exact ⟨reachable, node_levelOutcome, introduced, bytes, marshals.width, marshals.written [7]⟩

end Program

end DriverIdl
