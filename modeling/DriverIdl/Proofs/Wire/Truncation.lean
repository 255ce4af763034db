import DriverIdl.Proofs.Wire.Bounds
import DriverIdl.Proofs.Wire.Canonical

/-!
# Parcels that are cut short

What is read back from the bytes of a value needs all of them: where only the first of them stand,
reading fails for want of the others, and with no other failure.  The same holds of requests, whose
flag and capacities stand in front of the arguments.
-/

namespace DriverIdl.Wire

open Parcel

section Values

variable {arena : TypeArena}

theorem frugal_readValue (acyclic : arena.Acyclic) (type : TypeId) :
    Frugal Error.parcel (readValue arena type) := by
  apply Frugal.of_bounded
  intro bound
  refine ⟨readWithin arena ((arena.size + 1) * (bound + 1)) type,
    (madeOfRaw_readWithin arena _ type).frugal, fun place few => ?_⟩
  exact readWithin_eq_readValue acyclic (readDepth_lt_of_few type few)

theorem frugal_readArguments (acyclic : arena.Acyclic) (parameters : List Parameter) :
    Frugal Error.parcel (readArguments arena parameters) := by
  apply Frugal.of_bounded
  intro bound
  refine ⟨readEach (fun (parameter : Parameter) =>
      readWithin arena ((arena.size + 1) * (bound + 1)) parameter.type) parameters [],
    (madeOfRaw_readEach (fun (parameter : Parameter) =>
      madeOfRaw_readWithin arena _ parameter.type) _ _).frugal, fun place few => ?_⟩
  apply readEach_congr fun (parameter : Parameter) => forward_readValue arena parameter.type
  intro parameter _ later fewer
  exact readWithin_eq_readValue acyclic
    (readDepth_lt_of_few parameter.type (Nat.le_trans fewer few))

theorem frugal_readCapacities (method : Method) :
    Frugal Error.parcel (readCapacities arena method) := by
  apply MadeOfRaw.frugal
  unfold readCapacities
  split
  · apply (madeOfRaw_bool.adapt Error.parcel).bind
    intro announced
    split
    · exact (madeOfRaw_readMany
        (((madeOfRaw_number 4).adapt Error.parcel).bind fun _ => .pure _) _ _).bind
          fun _ => .pure _
    · exact .pure _
  · exact .pure _

/-- The bytes of a value are all needed to read it. -/
theorem needs_of_encode (acyclic : arena.Acyclic) {type : TypeId} {value : Value}
    {bytes : List UInt8} (encoded : encode arena type value = .ok bytes) :
    ∃ result, Needs Error.parcel (readValue arena type) bytes result := by
  obtain ⟨stored, appends, reads⟩ :=
    transfers_of_conforms acyclic (conforms_of_accepts (accepts_of_written encoded))
  obtain rfl : stored = bytes := Except.ok.inj ((encode_of_appends appends).symm.trans encoded)
  have run := reads [] []
  rw [List.append_nil] at run
  obtain ⟨taken, suffix, split, reached, needs⟩ := frugal_readValue acyclic type _ _ _ _ run
  have ended := congrArg Reader.remaining reached
  rw [Reader.remaining_between, Reader.remaining_between, List.length_nil, eq_comm,
    List.length_eq_zero_iff] at ended
  rw [ended, List.append_nil] at split
  exact ⟨_, split ▸ needs⟩

end Values

section Requests

variable {arena : TypeArena} {method : Method}

/-- A request that is encoded suits its method. -/
theorem suits_of_encodeRequest {request : Request} {bytes : List UInt8}
    (encoded : encodeRequest arena method request = .ok bytes) : request.Suits arena method := by
  obtain ⟨capacities, rest⟩ := (accepts_of_written encoded).of_bind
  obtain ⟨checked, arguments⟩ := rest.of_bind
  have counted : method.inParameters.length = request.arguments.length :=
    ite_eq_ok_iff.mp (accepts_liftExcept checked)
  refine ⟨conformToAll_of_accepts counted arguments, ?_⟩
  intro flag given announced
  simp only [writeCapacities, flag, announced, ↓reduceIte] at capacities
  exact (ite_eq_ok_iff.mp (accepts_liftExcept capacities.of_bind.2.of_bind.1)).symm

/-- What a request holds, before the end is checked. -/
def readRequest (arena : TypeArena) (method : Method) : Read Request := do
  let capacities ← readCapacities arena method
  let arguments ← readArguments arena method.inParameters
  return ⟨arguments, capacities⟩

theorem decodeRequest_eq_readRequest (bytes : List UInt8) :
    decodeRequest arena method bytes = readFrom bytes (do
      let request ← readRequest arena method
      let reader ← get
      if !reader.isExhausted then
        throw (.marshal (.trailingBytes reader.remaining method.name))
      return request) := by
  simp only [decodeRequest, readRequest, bind_assoc, pure_bind]

theorem frugal_readRequest (acyclic : arena.Acyclic) :
    Frugal Error.parcel (readRequest arena method) :=
  (frugal_readCapacities method).bind fun _ =>
    (frugal_readArguments acyclic method.inParameters).bind fun _ => .pure (.pure _)

/-- The bytes of a request are all needed to read it. -/
theorem needs_of_encodeRequest (acyclic : arena.Acyclic) {request : Request} {bytes : List UInt8}
    (encoded : encodeRequest arena method request = .ok bytes) :
    ∃ result, Needs Error.parcel (readRequest arena method) bytes result := by
  obtain ⟨stored, again, decoded⟩ :=
    decodeRequest_encodeRequest acyclic (suits_of_encodeRequest encoded)
  obtain rfl : stored = bytes := Except.ok.inj (again.symm.trans encoded)
  rw [decodeRequest_eq_readRequest] at decoded
  obtain ⟨after, run⟩ := readFrom_eq_ok decoded
  obtain ⟨result, middle, read, run⟩ := bind_eq_ok.mp run
  obtain ⟨taken, suffix, rfl, rfl, needs⟩ := frugal_readRequest acyclic _ _ _ _ read
  obtain ⟨rfl, -⟩ := finish_eq_ok run
  rw [List.append_nil]
  exact ⟨result, needs⟩

end Requests

/-- Cutting a parcel short is always noticed.  Where only the first bytes of an encoded value stand,
wherever that is, reading fails because it wants more bytes than are left where it stops; and so does
decoding the first bytes of an encoded request. -/
theorem cut_parcels_underflow {arena : TypeArena} (acyclic : arena.Acyclic) :
    (∀ type value bytes, encode arena type value = .ok bytes →
      ∀ before short, short <+: bytes → short ≠ bytes →
        ∃ wanted place, readValue arena type (.between before short) =
          .error (.parcel (.underflow wanted place.remaining)) place ∧
            place.remaining < wanted) ∧
    ∀ method request bytes, encodeRequest arena method request = .ok bytes →
      ∀ short, short <+: bytes → short ≠ bytes →
        ∃ wanted left, decodeRequest arena method short =
          .error (.parcel (.underflow wanted left)) ∧ left < wanted := by
  refine ⟨?_, ?_⟩
  · rintro type value _ encoded before short ⟨missing, rfl⟩ strict
    obtain ⟨result, needs⟩ := needs_of_encode acyclic encoded
    exact needs.starves before short missing rfl fun none => strict (by simp [none])
  · rintro method request _ encoded short ⟨missing, rfl⟩ strict
    obtain ⟨result, needs⟩ := needs_of_encodeRequest acyclic encoded
    have starves := needs.starves [] short missing rfl fun none => strict (by simp [none])
    obtain ⟨wanted, place, run, few⟩ := starves.bind
    refine ⟨wanted, place.remaining, ?_, few⟩
    rw [decodeRequest_eq_readRequest, readFrom, Reader.start_eq_between, run]

theorem cut_parcels_underflow_folder :
    folders.Acyclic ∧
      (∃ wanted place, readValue folders 14 (.between [] [2, 0, 0, 0, 1, 0, 0, 0, 255]) =
        .error (.parcel (.underflow wanted place.remaining)) place ∧ place.remaining < wanted) ∧
      ∃ wanted left, decodeRequest folders listing [1, 4, 0, 0, 0] =
        .error (.parcel (.underflow wanted left)) ∧ left < wanted := by
  obtain ⟨values, requests⟩ := cut_parcels_underflow folders_acyclic
  have encoded : encode folders 14 shuffledFolder =
      .ok [2, 0, 0, 0, 1, 0, 0, 0, 255, 255, 255, 255, 0, 0, 0, 0] := rfl
  have encodedRequest : encodeRequest folders listing listingRequest =
      .ok [1, 4, 0, 0, 0, 1, 0, 0, 0, 2, 0, 0, 0, 1, 0, 0, 0, 255, 255, 255, 255, 0, 0, 0, 0,
        3, 0, 0, 0] := rfl
  exact ⟨folders_acyclic,
    values _ _ _ encoded [] _ (by decide) (by decide),
    requests _ _ _ encodedRequest _ (by decide) (by decide)⟩

end DriverIdl.Wire
