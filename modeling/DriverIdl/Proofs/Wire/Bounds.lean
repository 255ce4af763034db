import DriverIdl.Proofs.Parcel.RawReads
import DriverIdl.Proofs.Wire.FixedSize

/-!
# Reading bytes that nobody wrote

A parcel from elsewhere may hold any bytes, and a type may contain itself through containers.  Reading
still ends: the number of types and the number of bytes that are left bound how deep it goes, whatever
the bytes are.  And it sees the bytes through raw reads only, so it never leaves the parcel.
-/

namespace DriverIdl

namespace Wire

open Parcel

section Raw

variable {α β : Type} {arena : TypeArena}

theorem madeOfRaw_readMany {read : Read α} (made : MadeOfRaw Error.parcel read) (count : Nat)
    (known : List α) : MadeOfRaw Error.parcel (readMany read count known) := by
  induction count generalizing known with
  | zero => exact .pure _
  | succ count ih => exact made.bind fun value => ih (value :: known)

theorem madeOfRaw_readEach {read : α → Read β} (made : ∀ item, MadeOfRaw Error.parcel (read item))
    (items : List α) (known : List β) : MadeOfRaw Error.parcel (readEach read items known) := by
  induction items generalizing known with
  | nil => exact .pure _
  | cons item rest ih => exact (made item).bind fun value => ih (value :: known)

theorem madeOfRaw_readPrimitive (primitive : Primitive) :
    MadeOfRaw (fun failure => failure) (readPrimitive primitive) := by
  have integer (shape : IntShape) :
      MadeOfRaw (fun failure => failure) (readPrimitive.integer shape) :=
    (madeOfRaw_number _).bind fun _ => .pure _
  cases primitive with
  | boolean => exact madeOfRaw_bool.bind fun _ => .pure _
  | float | double | fileDescriptor => exact (madeOfRaw_number _).bind fun _ => .pure _
  | string => exact madeOfRaw_string.bind fun _ => .pure _
  | void => exact .pure _
  | byte | short | int | long | uchar | ushort | uint | ulong => exact integer _

theorem madeOfRaw_readEnum (base : Primitive) : MadeOfRaw Error.parcel (readEnum base) := by
  rw [readEnum]
  split
  · exact .throw _
  · exact ((madeOfRaw_number _).adapt Error.parcel).bind fun _ => .pure _

theorem madeOfRaw_readQueue : MadeOfRaw (fun failure => failure) readQueue :=
  (madeOfRaw_number 4).bind fun _ => (madeOfRaw_number 4).bind fun _ =>
    (madeOfRaw_number 4).bind fun _ => madeOfRaw_bool.bind fun _ => .pure _

theorem madeOfRaw_plainSize (type : TypeId) :
    MadeOfRaw Error.parcel (plainSize arena type : Read Nat) := by
  rw [plainSize]
  split
  · exact .pure _
  · exact .throw _

/-- The rule of a type reads bytes through raw reads if that is how the types inside are read. -/
theorem madeOfRaw_readRule {read : TypeId → Read Value}
    (made : ∀ id, MadeOfRaw Error.parcel (read id)) (type : TypeId) :
    MadeOfRaw Error.parcel (readRule arena read type) := by
  have counted {α : Type} {read : Read α} (made : MadeOfRaw Error.parcel read)
      (convert : List α → Value) : MadeOfRaw Error.parcel (do
        let count ← Parcel.Read.length.adaptExcept Error.parcel
        let results ← readMany read count []
        return convert results) :=
    (madeOfRaw_length.adapt Error.parcel).bind fun count =>
      (madeOfRaw_readMany made count []).bind fun _ => .pure _
  unfold readRule
  cases arena.node type with
  | primitive primitive => exact (madeOfRaw_readPrimitive primitive).adapt Error.parcel
  | enum declared => exact madeOfRaw_readEnum declared.base
  | struct record =>
      exact (madeOfRaw_readEach
        (fun (member : Member) => (made member.type).bind fun _ => .pure _) _ _).bind
          fun _ => .pure _
  | union record =>
      exact (madeOfRaw_plainSize type).bind fun size =>
        ((MadeOfRaw.raw size).adapt Error.parcel).bind fun _ => .pure _
  | array element | list element => exact counted (made element) .seq
  | map key value =>
      exact counted ((made key).bind fun _ => (made value).bind fun _ => .pure _) .map
  | interface declared => exact ((madeOfRaw_number 8).adapt Error.parcel).bind fun _ => .pure _
  | sequenceable declared => exact (madeOfRaw_bytes.adapt Error.parcel).bind fun _ => .pure _
  | queue element => exact madeOfRaw_readQueue.adapt Error.parcel

theorem madeOfRaw_readWithin (arena : TypeArena) (depth : Nat) (type : TypeId) :
    MadeOfRaw Error.parcel (readWithin arena depth type) := by
  induction depth generalizing type with
  | zero => exact .throw _
  | succ depth ih => exact madeOfRaw_readRule ih type

end Raw

section Depth

variable {arena : TypeArena}

/-- The rules of types followed for some levels, with another reader below them. -/
def readDown (arena : TypeArena) (deeper : TypeId → Read Value) : Nat → TypeId → Read Value
  | 0 => deeper
  | levels + 1 => readRule arena (readDown arena deeper levels)

/-- A number of levels that reading at a place cannot use up. -/
def levelBound (arena : TypeArena) (reader : Reader) : Nat :=
  (arena.size + 1) * (reader.remaining + 1)

theorem readDepth_lt_of_few (type : TypeId) {reader : Reader} {bound : Nat}
    (few : reader.remaining ≤ bound) :
    readDepth arena type reader < (arena.size + 1) * (bound + 1) := by
  have nests := arena.nesting_le_size type
  have bytes := Nat.mul_le_mul_left (arena.size + 1) few
  rw [readDepth, Nat.mul_succ]
  omega

/-- Whatever stands below the levels that reading uses is not reached. -/
theorem readDown_eq_readValue (acyclic : arena.Acyclic) (deeper : TypeId → Read Value)
    {levels : Nat} {type : TypeId} {reader : Reader}
    (enough : readDepth arena type reader < levels) :
    readDown arena deeper levels type reader = readValue arena type reader := by
  induction levels generalizing type reader with
  | zero => omega
  | succ levels ih =>
      rw [readValue_eq_readRule acyclic, readDown]
      apply readRule_congr (forward_readValue arena)
      · intro inner contains place bound
        have drops := readDepth_lt_of_contains acyclic contains bound
        exact ih (by omega)
      · intro inner place fewer
        have drops : readDepth arena inner place < readDepth arena type reader :=
          readDepth_lt_of_remaining_lt fewer
        exact ih (by omega)

end Depth

/-- Reading a value follows the rules of types, and at a place of a parcel it gets no deeper than a
bound that is computed from the number of types and of bytes left: what stands below that depth is
never asked.  The size of a union is found within as many levels as there are types.  All bytes are
seen through raw reads, and wherever reading stops, with a value or a failure, it is in the same
parcel, not in front of where it started and not behind the end. -/
structure EndsInside (arena : TypeArena) (type : TypeId) (reader : Reader) : Prop where
  byRule : readValue arena type = readRule arena (readValue arena) type
  levels : ∀ deeper,
    readDown arena deeper (levelBound arena reader) type reader = readValue arena type reader
  sizes : ∀ deeper id, arena.sizeDown deeper (arena.size + 1) id = arena.fixedSize? id
  raw : ∀ depth, MadeOfRaw Error.parcel (readWithin arena depth type)
  leads : reader.Leads (stop (readValue arena type reader))
  inside : (stop (readValue arena type reader)).index ≤ reader.data.size

theorem readValue_ends_inside {arena : TypeArena} (acyclic : arena.Acyclic) (type : TypeId)
    (reader : Reader) : EndsInside arena type reader := by
  have leads : reader.Leads (stop (readValue arena type reader)) :=
    (madeOfRaw_readWithin arena _ type).leads reader
  exact {
    byRule := readValue_eq_readRule acyclic type
    levels := fun deeper =>
      readDown_eq_readValue acyclic deeper (readDepth_lt_of_few type (Nat.le_refl _))
    sizes := fun deeper id =>
      TypeArena.sizeDown_eq_fixedSize? (acyclic.not_reachesCycle id) deeper
    raw := fun depth => madeOfRaw_readWithin arena depth type
    leads := leads
    inside := leads.sameData ▸ (stop (readValue arena type reader)).index_le }

/-- Bytes that claim to be a folder with two folders in it, and end in the first of them. -/
def hostileFolder : List UInt8 :=
  [2, 0, 0, 0, 2, 0, 0, 0, 5, 0, 0, 0, 255, 255]

theorem readValue_ends_inside_folder :
    folders.Acyclic ∧
      (∀ deeper, readDown folders deeper 255 14 (.between [] hostileFolder) =
        .error (.parcel (.underflow 4 2)) (.between (hostileFolder.take 12) [255, 255])) ∧
      (Reader.between [] hostileFolder).Leads
        (stop (readValue folders 14 (.between [] hostileFolder))) := by
  have ends := readValue_ends_inside folders_acyclic 14 (.between [] hostileFolder)
  have run : readValue folders 14 (.between [] hostileFolder) =
      .error (.parcel (.underflow 4 2)) (.between (hostileFolder.take 12) [255, 255]) := rfl
  exact ⟨folders_acyclic, fun deeper => (ends.levels deeper).trans run, ends.leads⟩

end Wire

end DriverIdl
