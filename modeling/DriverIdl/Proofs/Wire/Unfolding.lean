import DriverIdl.Proofs.Containment.Graph
import DriverIdl.Proofs.Parcel.Stream
import DriverIdl.Wire.Basic

/-!
# Reading without a bound on the depth

`readValue` reads within a bound on the depth.  Where no type contains itself by value the bound is
never met: a member nests less deep than its struct, and an element is read with fewer bytes left
than its container.  So `readValue` follows the rule of a type with itself in the place of the
reader for the types inside, and no later statement mentions a depth.
-/

namespace DriverIdl.Wire

open Parcel

section Loops

variable {α β : Type}

theorem forward_readMany {read : Read α} (forward : Forward read) (count : Nat) (known : List α) :
    Forward (readMany read count known) := by
  induction count generalizing known with
  | zero => exact .pure _
  | succ count ih => exact forward.bind fun value => ih (value :: known)

theorem forward_readEach {read : α → Read β} (forward : ∀ item, Forward (read item))
    (items : List α) (known : List β) : Forward (readEach read items known) := by
  induction items generalizing known with
  | nil => exact .pure _
  | cons item rest ih => exact (forward item).bind fun value => ih (value :: known)

theorem readMany_congr {read other : Read α} (forward : Forward read) {reader : Reader}
    (same : ∀ place : Reader, place.remaining ≤ reader.remaining → other place = read place)
    (count : Nat) (known : List α) :
    readMany other count known reader = readMany read count known reader := by
  induction count generalizing known reader with
  | zero => rfl
  | succ count ih =>
      apply run_bind_congr (same reader (Nat.le_refl _))
      intro value middle run
      have shorter := forward.remaining_le run
      exact ih (fun place bound => same place (Nat.le_trans bound shorter)) _

theorem readEach_congr {read other : α → Read β} (forward : ∀ item, Forward (read item))
    {reader : Reader} {items : List α}
    (same : ∀ item ∈ items, ∀ place : Reader, place.remaining ≤ reader.remaining →
      other item place = read item place) (known : List β) :
    readEach other items known reader = readEach read items known reader := by
  induction items generalizing known reader with
  | nil => rfl
  | cons item rest ih =>
      apply run_bind_congr (same item (by simp) reader (Nat.le_refl _))
      intro value middle run
      have shorter := (forward item).remaining_le run
      apply ih
      intro later listed place bound
      exact same later (by simp [listed]) place (Nat.le_trans bound shorter)

end Loops

section Rule

variable {arena : TypeArena}

theorem forward_readPrimitive (primitive : Primitive) : Forward (readPrimitive primitive) := by
  have integer (shape : IntShape) : Forward (readPrimitive.integer shape) :=
    (forward_number _).bind fun _ => .pure _
  cases primitive with
  | boolean => exact forward_bool.bind fun _ => .pure _
  | float => exact (forward_number 4).bind fun _ => .pure _
  | double => exact (forward_number 8).bind fun _ => .pure _
  | string => exact forward_string.bind fun _ => .pure _
  | fileDescriptor => exact (forward_number 4).bind fun _ => .pure _
  | void => exact .pure _
  | byte | short | int | long | uchar | ushort | uint | ulong => exact integer _

theorem forward_readEnum (base : Primitive) : Forward (readEnum base) := by
  rw [readEnum]
  split
  · exact .throw _
  · exact ((forward_number _).adapt _).bind fun _ => .pure _

theorem forward_readQueue : Forward readQueue :=
  (forward_number 4).bind fun _ => (forward_number 4).bind fun _ =>
    (forward_number 4).bind fun _ => forward_bool.bind fun _ => .pure _

theorem forward_plainSize (type : TypeId) : Forward (plainSize arena type : Read Nat) := by
  rw [plainSize]
  split
  · exact .pure _
  · exact .throw _

theorem forward_readRule {read : TypeId → Read Value} (forward : ∀ id, Forward (read id))
    (type : TypeId) : Forward (readRule arena read type) := by
  have sequence (element : TypeId) : Forward (do
      let count ← Parcel.Read.length.adaptExcept Error.parcel
      let elements ← readMany (read element) count []
      return Value.seq elements) :=
    (forward_length.adapt _).bind fun count =>
      (forward_readMany (forward element) count []).bind fun _ => .pure _
  unfold readRule
  cases arena.node type with
  | primitive primitive => exact (forward_readPrimitive primitive).adapt _
  | enum declared => exact forward_readEnum declared.base
  | struct record =>
      exact (forward_readEach
        (fun (member : Member) => (forward member.type).bind fun _ => .pure _) _ _).bind
          fun _ => .pure _
  | union record =>
      exact (forward_plainSize type).bind fun size =>
        ((forward_raw size).adapt _).bind fun _ => .pure _
  | array element | list element => exact sequence element
  | map key value =>
      exact (forward_length.adapt _).bind fun count =>
        (forward_readMany ((forward key).bind fun _ => (forward value).bind fun _ => .pure _)
          count []).bind fun _ => .pure _
  | interface declared => exact ((forward_number 8).adapt _).bind fun _ => .pure _
  | sequenceable declared => exact (forward_bytes.adapt _).bind fun _ => .pure _
  | queue element => exact forward_readQueue.adapt _

/-- The rule of a type only reads members with at most the bytes it was given, and elements with
fewer. -/
theorem readRule_congr {read other : TypeId → Read Value} (forward : ∀ id, Forward (read id))
    {type : TypeId} {reader : Reader}
    (sameMembers : ∀ inner, arena.Contains type inner → ∀ place : Reader,
      place.remaining ≤ reader.remaining → other inner place = read inner place)
    (sameElements : ∀ inner (place : Reader), place.remaining < reader.remaining →
      other inner place = read inner place) :
    readRule arena other type reader = readRule arena read type reader := by
  have sequence (element : TypeId) :
      (do
        let count ← Parcel.Read.length.adaptExcept Error.parcel
        let elements ← readMany (other element) count []
        return Value.seq elements : Read Value) reader =
      (do
        let count ← Parcel.Read.length.adaptExcept Error.parcel
        let elements ← readMany (read element) count []
        return Value.seq elements : Read Value) reader := by
    apply run_bind_congr rfl
    intro count middle run
    have shorter := remaining_lt_of_length (adaptExcept_eq_ok.mp run)
    apply run_bind_congr
    · apply readMany_congr (forward element)
      intro place bound
      exact sameElements element place (Nat.lt_of_le_of_lt bound shorter)
    · exact fun _ _ _ => rfl
  unfold readRule
  cases node : arena.node type with
  | primitive | enum | union | interface | sequenceable | queue => rfl
  | struct record =>
      refine run_bind_congr ?_ fun _ _ _ => rfl
      apply readEach_congr fun (member : Member) => (forward member.type).bind fun _ => .pure _
      intro member listed place bound
      have contains := TypeArena.Contains.of_member (TypeArena.record?_of_struct node) listed
      exact run_bind_congr (sameMembers _ contains place bound) fun _ _ _ => rfl
  | array element | list element => exact sequence element
  | map key value =>
      apply run_bind_congr rfl
      intro count middle run
      have shorter := remaining_lt_of_length (adaptExcept_eq_ok.mp run)
      refine run_bind_congr ?_ fun _ _ _ => rfl
      apply readMany_congr ((forward key).bind fun _ => (forward value).bind fun _ => .pure _)
      intro place bound
      have fewer := Nat.lt_of_le_of_lt bound shorter
      apply run_bind_congr (sameElements key place fewer)
      intro keyValue behind runKey
      have behindKey := (forward key).remaining_le runKey
      exact run_bind_congr (sameElements value behind (Nat.lt_of_le_of_lt behindKey fewer))
        fun _ _ _ => rfl

end Rule

section Depth

variable {arena : TypeArena}

theorem forward_readWithin (arena : TypeArena) (depth : Nat) (type : TypeId) :
    Forward (readWithin arena depth type) := by
  induction depth generalizing type with
  | zero => exact .throw _
  | succ depth ih => exact forward_readRule ih type

theorem forward_readValue (arena : TypeArena) (type : TypeId) : Forward (readValue arena type) :=
  fun reader => forward_readWithin arena _ type reader

/-- The levels that reading a type at a place can use. -/
noncomputable def readDepth (arena : TypeArena) (type : TypeId) (reader : Reader) : Nat :=
  arena.nesting type + (arena.size + 1) * reader.remaining

theorem readDepth_lt_of_contains (acyclic : arena.Acyclic) {outer inner : TypeId}
    (contains : arena.Contains outer inner) {reader place : Reader}
    (bound : place.remaining ≤ reader.remaining) :
    readDepth arena inner place < readDepth arena outer reader := by
  have nests := TypeArena.nesting_lt_of_contains contains (acyclic.not_reachesCycle outer)
  have bytes := Nat.mul_le_mul_left (arena.size + 1) bound
  unfold readDepth
  omega

theorem readDepth_lt_of_remaining_lt {outer inner : TypeId} {reader place : Reader}
    (fewer : place.remaining < reader.remaining) :
    readDepth arena inner place < readDepth arena outer reader := by
  have nests := arena.nesting_le_size inner
  have bytes := Nat.mul_le_mul_left (arena.size + 1) (Nat.succ_le_of_lt fewer)
  rw [Nat.mul_succ] at bytes
  unfold readDepth
  omega

theorem readWithin_succ (acyclic : arena.Acyclic) {depth : Nat} {type : TypeId} {reader : Reader}
    (enough : readDepth arena type reader < depth) :
    readWithin arena (depth + 1) type reader = readWithin arena depth type reader := by
  induction depth generalizing type reader with
  | zero => omega
  | succ depth ih =>
      apply readRule_congr (forward_readWithin arena depth)
      · intro inner contains place bound
        have drops := readDepth_lt_of_contains acyclic contains bound
        exact ih (by omega)
      · intro inner place fewer
        have drops : readDepth arena inner place < readDepth arena type reader :=
          readDepth_lt_of_remaining_lt fewer
        exact ih (by omega)

theorem readWithin_eq_of_le (acyclic : arena.Acyclic) {depth deeper : Nat} {type : TypeId}
    {reader : Reader} (enough : readDepth arena type reader < depth) (deep : depth ≤ deeper) :
    readWithin arena deeper type reader = readWithin arena depth type reader := by
  induction deeper, deep using Nat.le_induction with
  | base => rfl
  | succ deeper deep ih =>
      rw [readWithin_succ acyclic (Nat.lt_of_lt_of_le enough deep), ih]

/-- Reading within any depth that suffices is reading. -/
theorem readWithin_eq_readValue (acyclic : arena.Acyclic) {depth : Nat} {type : TypeId}
    {reader : Reader} (enough : readDepth arena type reader < depth) :
    readWithin arena depth type reader = readValue arena type reader := by
  have nests := arena.nesting_le_size type
  have given : readDepth arena type reader + 1 ≤ (arena.size + 1) * (reader.remaining + 2) := by
    unfold readDepth
    rw [Nat.mul_add]
    omega
  rw [readWithin_eq_of_le acyclic (Nat.lt_succ_self _) enough]
  exact (readWithin_eq_of_le acyclic (Nat.lt_succ_self _) given).symm

/-- Reading follows the rule of a type, and reads what is inside in the same way. -/
theorem readValue_eq_readRule (acyclic : arena.Acyclic) (type : TypeId) :
    readValue arena type = readRule arena (readValue arena) type := by
  funext reader
  rw [← readWithin_eq_readValue acyclic (Nat.lt_succ_self (readDepth arena type reader))]
  apply readRule_congr (forward_readValue arena)
  · intro inner contains place bound
    exact readWithin_eq_readValue acyclic (readDepth_lt_of_contains acyclic contains bound)
  · intro inner place fewer
    exact readWithin_eq_readValue acyclic (readDepth_lt_of_remaining_lt fewer)

end Depth

end DriverIdl.Wire
