import DriverIdl.Proofs.Wire.Transfer

/-!
# Values survive the wire

A value is written exactly if it conforms to its type, and then it is read back as its canonical
form, whatever stands before and behind it in the parcel.
-/

namespace DriverIdl

namespace Value

/-- The values that a value holds one level down. -/
def parts : Value → List Value
  | .seq elements => elements
  | .map entries => entries.map Prod.fst ++ entries.map Prod.snd
  | .struct fields => fields.map Prod.snd
  | _ => []

theorem key_mem_parts {entry : Value × Value} {entries : List (Value × Value)}
    (held : entry ∈ entries) : entry.1 ∈ (Value.map entries).parts :=
  List.mem_append_left _ (List.mem_map_of_mem held)

theorem value_mem_parts {entry : Value × Value} {entries : List (Value × Value)}
    (held : entry ∈ entries) : entry.2 ∈ (Value.map entries).parts :=
  List.mem_append_right _ (List.mem_map_of_mem held)

theorem sizeOf_entry_lt {entry : Value × Value} {entries : List (Value × Value)}
    (held : entry ∈ entries) :
    sizeOf entry.1 < sizeOf (Value.map entries) ∧ sizeOf entry.2 < sizeOf (Value.map entries) := by
  have smaller := List.sizeOf_lt_of_mem held
  obtain ⟨key, value⟩ := entry
  simp only [Prod.mk.sizeOf_spec] at smaller
  simp only [map.sizeOf_spec]
  omega

theorem sizeOf_lt_of_part {part value : Value} (listed : part ∈ value.parts) :
    sizeOf part < sizeOf value := by
  cases value with
  | seq elements =>
      have smaller : sizeOf part < sizeOf elements := List.sizeOf_lt_of_mem listed
      simp only [seq.sizeOf_spec]
      omega
  | map entries =>
      rcases List.mem_append.mp listed with listed | listed
      · obtain ⟨entry, held, rfl⟩ := List.mem_map.mp listed
        exact (sizeOf_entry_lt held).1
      · obtain ⟨entry, held, rfl⟩ := List.mem_map.mp listed
        exact (sizeOf_entry_lt held).2
  | struct fields =>
      obtain ⟨⟨name, value⟩, held, rfl⟩ := List.mem_map.mp listed
      have smaller := List.sizeOf_lt_of_mem held
      simp only [Prod.mk.sizeOf_spec] at smaller
      simp only [struct.sizeOf_spec]
      omega
  | bool | int | f32 | f64 | string | fd | enum | union | remote | sequenceable | queue | void =>
      cases listed

/-- Induction from the parts of a value to the value. -/
@[elab_as_elim]
theorem partsInduction {motive : Value → Prop}
    (step : ∀ value, (∀ part ∈ value.parts, motive part) → motive value) (value : Value) :
    motive value :=
  step value fun part listed =>
    have := sizeOf_lt_of_part listed
    partsInduction step part
termination_by sizeOf value

end Value

namespace Wire

open Parcel

section Acceptance

variable {arena : TypeArena} {type : TypeId}

theorem not_accepts_mismatch (value : Value) :
    ¬Accepts (mismatch arena type value : Write Unit) :=
  not_accepts_throw _

theorem accepts_plainSize {next : Nat → Write Unit}
    (accepts : Accepts (plainSize arena type >>= next)) :
    ∃ size, arena.fixedSize? type = some size ∧ Accepts (next size) := by
  rw [plainSize] at accepts
  cases found : arena.fixedSize? type with
  | none =>
      rw [found] at accepts
      have refused : Accepts (throw (.marshal (.noFixedSize (arena.spelling type))) : Write Unit) :=
        accepts
      exact absurd refused (not_accepts_throw _)
  | some size =>
      rw [found] at accepts
      exact ⟨size, rfl, accepts⟩

theorem conforms_of_primitive {primitive : Primitive} {value : Value} {write : Write Unit}
    (node : arena.node type = .primitive primitive)
    (written : writePrimitive? primitive value = some write) (accepts : Accepts write) :
    Conforms arena type value := by
  unfold writePrimitive? at written
  split at written
  · exact .boolean node
  · exact .float node
  · exact .double node
  · cases written
    exact .string node (length_utf8 _ ▸ le_maxLength_of_accepts accepts.of_adapt.of_bind.1)
  · exact .descriptor node
  · exact .void node
  · split at written
    · rename_i shaped
      exact .integer node shaped
    · cases written
  · cases written

theorem conforms_of_enum {declared : EnumType} {number : Int}
    (node : arena.node type = .enum declared) (accepts : Accepts (writeEnum declared.base number)) :
    Conforms arena type (.enum number) := by
  rw [writeEnum] at accepts
  split at accepts
  · exact absurd accepts (not_accepts_throw _)
  · rename_i shape shaped
    split at accepts
    · rename_i held
      obtain ⟨low, high⟩ := Bool.and_eq_true_iff.mp held
      have range : declared.base.range? = some (shape.least, shape.greatest) := by
        rw [Primitive.range?, shaped, Option.map_some]
      exact .enum node range (of_decide_eq_true low) (of_decide_eq_true high)
    · exact absurd accepts (not_accepts_throw _)

theorem conforms_of_union {record : RecordType} {block : List UInt8}
    (node : arena.node type = .union record) (accepts : Accepts (writeUnion arena type block)) :
    Conforms arena type (.union block) := by
  obtain ⟨size, found, accepts⟩ := accepts_plainSize accepts
  split at accepts
  · exact absurd accepts.of_bind.1 (not_accepts_throw _)
  · rename_i same
    exact .union node (by rw [found, Decidable.not_not.mp same])

theorem conforms_of_queue {element : TypeId} {descriptor : QueueMeta}
    (node : arena.node type = .queue element)
    (accepts : Accepts (writeQueue arena type element descriptor)) :
    Conforms arena type (.queue descriptor) := by
  obtain ⟨size, found, accepts⟩ := accepts_plainSize accepts
  split at accepts
  · exact absurd accepts.of_bind.1 (not_accepts_throw _)
  · rename_i same
    exact .queue node (by rw [found, Decidable.not_not.mp same])

theorem conforms_of_simple {value : Value} (accepts : Accepts (writeSimple arena type value)) :
    Conforms arena type value := by
  unfold writeSimple at accepts
  split at accepts
  · rename_i primitive node
    split at accepts
    · rename_i write written
      exact conforms_of_primitive node written accepts
    · exact absurd accepts (not_accepts_mismatch _)
  · rename_i declared number node
    exact conforms_of_enum node accepts
  · rename_i record block node
    exact conforms_of_union node accepts
  · rename_i declared handle node
    exact .remote node
  · rename_i declared payload node
    exact .sequenceable node (le_maxLength_of_accepts accepts.of_adapt.of_bind.1)
  · rename_i element descriptor node
    exact conforms_of_queue node accepts
  · exact absurd accepts (not_accepts_mismatch _)

theorem accepts_field {record : RecordType} {fields : List (String × Value)} {member : Member}
    (accepts : Accepts (writeField arena record fields member)) :
    ∃ value, Value.lookup member.name fields = some value ∧
      Accepts (writeValue arena member.type value) := by
  rw [writeField] at accepts
  cases found : Value.lookup member.name fields with
  | none =>
      rw [found] at accepts
      exact absurd accepts (not_accepts_throw _)
  | some value =>
      rw [found] at accepts
      exact ⟨value, rfl, accepts⟩

theorem mem_of_lookup {name : String} {value : Value} {fields : List (String × Value)}
    (found : Value.lookup name fields = some value) : (name, value) ∈ fields := by
  induction fields with
  | nil => cases found
  | cons field rest ih =>
      rw [Value.lookup] at found
      split at found
      · rename_i same
        cases found
        rw [← beq_iff_eq.mp same]
        exact List.mem_cons_self
      · exact List.mem_cons_of_mem _ (ih found)

theorem conforms_of_counted {element : TypeId} {elements : List Value}
    (holds : arena.element? type = some element)
    (accepts : Accepts (do
      writeCount elements.length
      writeElements arena element elements))
    (ih : ∀ value ∈ elements, ∀ {type}, Accepts (writeValue arena type value) →
      Conforms arena type value) : Conforms arena type (.seq elements) := by
  rw [writeElements_eq_forM] at accepts
  obtain ⟨counted, listed⟩ := accepts.of_bind
  exact .sequence holds (le_maxLength_of_accepts counted.of_adapt) fun value member =>
    ih value member (listed.of_forM value member)

/-- Only values that conform to a type are written by its rule. -/
theorem conforms_of_accepts {value : Value} (accepts : Accepts (writeValue arena type value)) :
    Conforms arena type value := by
  induction value using Value.partsInduction generalizing type with
  | step value ih =>
    cases value with
    | seq elements =>
        simp only [writeValue] at accepts
        split at accepts
        · rename_i element node
          exact conforms_of_counted (by rw [TypeArena.element?, node]) accepts ih
        · rename_i element node
          exact conforms_of_counted (by rw [TypeArena.element?, node]) accepts ih
        · exact absurd accepts (not_accepts_mismatch _)
    | map entries =>
        simp only [writeValue] at accepts
        split at accepts
        · rename_i key value node
          rw [writeEntries_eq_forM] at accepts
          obtain ⟨counted, listed⟩ := accepts.of_bind
          have each (entry : Value × Value) (member : entry ∈ entries) :=
            (listed.of_forM entry member).of_bind
          refine .map node (le_maxLength_of_accepts counted.of_adapt) ?_ ?_
          · intro entry member
            exact ih entry.1 (Value.key_mem_parts member) (each entry member).1
          · intro entry member
            exact ih entry.2 (Value.value_mem_parts member) (each entry member).2
        · exact absurd accepts (not_accepts_mismatch _)
    | struct fields =>
        simp only [writeValue] at accepts
        split at accepts
        · rename_i record node
          rw [writeMembers_eq_forM] at accepts
          refine .struct node ?_ ?_
          · intro member listed
            obtain ⟨value, found, -⟩ := accepts_field (accepts.of_forM member listed)
            exact Option.isSome_of_eq_some found
          · intro member listed value found
            obtain ⟨_, again, written⟩ := accepts_field (accepts.of_forM member listed)
            obtain rfl := Option.some.inj (again.symm.trans found)
            exact ih _ (List.mem_map_of_mem (mem_of_lookup found)) written
        · exact absurd accepts (not_accepts_mismatch _)
    | bool | int | f32 | f64 | string | fd | enum | union | remote | sequenceable | queue | void =>
        exact conforms_of_simple accepts

end Acceptance

/-- A value is written behind whatever a parcel holds exactly if it conforms to its type.  The bytes
that it adds are read back as its canonical form, whatever follows them, and reading ends right
behind them. -/
theorem writeValue_readValue_roundTrip {arena : TypeArena} (acyclic : arena.Acyclic) (type : TypeId)
    (value : Value) (held : List UInt8) :
    ((∃ after, writeValue arena type value held.toArray = .ok () after) ↔
      Conforms arena type value) ∧
    ∀ after, writeValue arena type value held.toArray = .ok () after →
      ∃ bytes, after = (held ++ bytes).toArray ∧ ∀ suffix,
        readValue arena type (Reader.between held (bytes ++ suffix)) =
          .ok (canonical arena type value) (Reader.between (held ++ bytes) suffix) := by
  have conforms {after : Array UInt8}
      (run : writeValue arena type value held.toArray = .ok () after) : Conforms arena type value :=
    conforms_of_accepts ⟨held.toArray, after, run⟩
  refine ⟨⟨fun ⟨_, run⟩ => conforms run, ?_⟩, ?_⟩
  · intro conforming
    obtain ⟨bytes, appends, -⟩ := transfers_of_conforms acyclic conforming
    exact ⟨_, appends held⟩
  · intro after run
    obtain ⟨bytes, appends, reads⟩ := transfers_of_conforms acyclic (conforms run)
    refine ⟨bytes, ?_, reads held⟩
    rw [appends held] at run
    cases run
    rfl

/-- Folders in folders: a struct that holds a list of itself. -/
def folders : TypeArena where
  nodes := (Primitive.all.map TypeNode.primitive).toArray ++
    #[.struct ⟨"Folder", 0, "", [⟨"id", Primitive.int.id, default⟩, ⟨"children", 15, default⟩], {},
      default⟩, .list 14]

theorem folders_acyclic : folders.Acyclic :=
  TypeArena.acyclic_of_height (fun id => if id = 14 then 1 else 0) (by decide)

/-- A folder with an empty folder in it. -/
def nestedFolder : Value :=
  .struct [("id", .int .i32 2),
    ("children", .seq [.struct [("id", .int .i32 (-1)), ("children", .seq [])]])]

/-- The same folder with its fields in another order and one that folders do not have. -/
def shuffledFolder : Value :=
  .struct [("note", .bool true),
    ("children", .seq [.struct [("id", .int .i32 (-1)), ("children", .seq [])]]),
    ("id", .int .i32 2)]

theorem writeValue_readValue_roundTrip_folder :
    folders.Acyclic ∧ Conforms folders 14 shuffledFolder ∧ ¬Conforms folders 14 (.struct []) ∧
      ∃ bytes, bytes.length = 16 ∧
        writeValue folders 14 shuffledFolder #[7] = .ok () ([7] ++ bytes).toArray ∧ ∀ suffix,
          readValue folders 14 (Reader.between [7] (bytes ++ suffix)) =
            .ok nestedFolder (Reader.between ([7] ++ bytes) suffix) := by
  have run : writeValue folders 14 shuffledFolder #[7] =
      .ok () #[7, 2, 0, 0, 0, 1, 0, 0, 0, 255, 255, 255, 255, 0, 0, 0, 0] := rfl
  obtain ⟨conforms, restored⟩ :=
    writeValue_readValue_roundTrip folders_acyclic 14 shuffledFolder [7]
  obtain ⟨refused, -⟩ := writeValue_readValue_roundTrip folders_acyclic 14 (.struct []) [7]
  obtain ⟨bytes, same, reads⟩ := restored _ run
  refine ⟨folders_acyclic, conforms.mp ⟨_, run⟩, ?_, bytes, ?_, run.trans (by rw [same]), reads⟩
  · intro conforming
    obtain ⟨after, written⟩ := refused.mpr conforming
    cases written
  · simpa using (congrArg Array.size same).symm

end Wire

end DriverIdl
