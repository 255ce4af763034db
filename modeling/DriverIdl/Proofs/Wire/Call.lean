import DriverIdl.Proofs.Wire.RoundTrip
import DriverIdl.Wire.Request

/-!
# Calls across the wire

A caller and a callee agree on a call.  The callee sees the arguments in canonical form and the
capacities that the caller announced.  It can answer exactly if every result that needs a capacity
fits the capacity announced for it, and then the caller sees the results in canonical form.
-/

namespace DriverIdl.Wire

open Parcel

section Whole

variable {α : Type}

theorem written_of_appends {write : Write Unit} {bytes : List UInt8}
    (appends : Appends write bytes) : written write = .ok bytes := by
  have run : write #[] = .ok () bytes.toArray := appends []
  simp only [written, run]

theorem accepts_of_written {write : Write Unit} {bytes : List UInt8}
    (done : written write = .ok bytes) : Accepts write := by
  rw [written] at done
  split at done
  · rename_i result after run
    exact ⟨#[], after, run⟩
  · cases done

theorem readFrom_of_reads {read : Read α} {bytes : List UInt8} {value : α}
    (reads : Reads read bytes value) : readFrom bytes read = .ok value := by
  have run := reads [] []
  rw [List.append_nil] at run
  simp only [readFrom, Reader.start_eq_between, run]

end Whole

section Arguments

variable {arena : TypeArena}

/-- Values that conform to the types of parameters, one for each. -/
def ConformToAll (arena : TypeArena) (parameters : List Parameter) (values : List Value) : Prop :=
  List.Forall₂ (fun parameter value => Conforms arena parameter.type value) parameters values

/-- The canonical forms of values of the types of parameters. -/
def canonicalAll (arena : TypeArena) (parameters : List Parameter) (values : List Value) :
    List Value :=
  List.zipWith (fun parameter value => canonical arena parameter.type value) parameters values

theorem writeArguments_eq_forM (items : List (Parameter × Value)) :
    writeArguments arena items = items.forM fun item => writeValue arena item.1.type item.2 := by
  induction items with
  | nil => rfl
  | cons item rest ih =>
      rw [writeArguments, ih]
      rfl

theorem transfers_arguments (acyclic : arena.Acyclic) {parameters : List Parameter}
    {values : List Value} (conform : ConformToAll arena parameters values) :
    Transfers (writeArguments arena (parameters.zip values)) (readArguments arena parameters)
      (canonicalAll arena parameters values) := by
  obtain ⟨sameLength, each⟩ := List.forall₂_iff_zip.mp conform
  have transfers : List.Forall₂ (fun (item : Parameter × Value) result =>
      Transfers (writeValue arena item.1.type item.2) (readValue arena item.1.type) result)
      (parameters.zip values)
      ((parameters.zip values).map fun item => canonical arena item.1.type item.2) :=
    List.forall₂_map_right_iff.mpr (List.forall₂_same.mpr fun item listed =>
      transfers_of_conforms acyclic (each listed))
  have listed := transfers_readEach Prod.fst
    (fun (parameter : Parameter) => readValue arena parameter.type) transfers []
  rw [List.map_fst_zip (Nat.le_of_eq sameLength)] at listed
  rw [writeArguments_eq_forM, canonicalAll, ← List.map_uncurry_zip_eq_zipWith]
  exact listed

end Arguments

section Capacities

variable {arena : TypeArena} {method : Method}

theorem transfers_capacity (capacity : UInt32) :
    Transfers (Parcel.Write.number 4 capacity.toNat : Write Unit) (do
      return UInt32.ofNat (← (Parcel.Read.number 4).adaptExcept Error.parcel)) capacity := by
  have stored : Transfers (Parcel.Write.number 4 capacity.toNat : Write Unit)
      (Parcel.Read.number 4) capacity.toNat := transfers_number capacity.toNat_lt
  have rebuilt := (stored.adaptRead Error.parcel).map UInt32.ofNat
  rw [UInt32.ofNat_toNat] at rebuilt
  exact rebuilt

theorem liftExcept_checkCount {what : String} {expected found : Nat} (same : expected = found) :
    writeCapacities.liftExcept (checkCount method what expected found) = pure () := by
  rw [checkCount, if_pos same]
  rfl

theorem transfers_given {given : List UInt32}
    (counted : given.length = (arena.capacityParameters method).length) :
    Transfers (do
      writeCapacities.liftExcept
        (checkCount method "capacity" (arena.capacityParameters method).length given.length)
      given.forM fun capacity => Parcel.Write.number 4 capacity.toNat) (do
      let given ← readMany (do
        return UInt32.ofNat (← (Parcel.Read.number 4).adaptExcept .parcel))
        (arena.capacityParameters method).length []
      return some given) (some given) := by
  have each : List.Forall₂ (fun (capacity : UInt32) result =>
      Transfers (Parcel.Write.number 4 capacity.toNat : Write Unit) (do
        return UInt32.ofNat (← (Parcel.Read.number 4).adaptExcept Error.parcel)) result)
      given given :=
    List.forall₂_same.mpr fun capacity _ => transfers_capacity capacity
  have listed := (transfers_readEach id (fun _ => do
    return UInt32.ofNat (← (Parcel.Read.number 4).adaptExcept Error.parcel)) each []).map some
  rw [← readMany_eq_readEach, counted] at listed
  rw [liftExcept_checkCount counted.symm, pure_bind]
  exact listed

theorem transfers_capacities {capacities : Option (List UInt32)}
    (counted : arena.needsCapacityFlag method → ∀ given, capacities = some given →
      given.length = (arena.capacityParameters method).length) :
    Transfers (writeCapacities arena method capacities) (readCapacities arena method)
      (if arena.needsCapacityFlag method then capacities else none) := by
  unfold writeCapacities readCapacities
  by_cases flag : arena.needsCapacityFlag method
  · simp only [flag, ↓reduceIte]
    cases capacities with
    | none => exact ((transfers_bool false).adaptRead Error.parcel).bind (.pure none)
    | some given =>
        exact ((transfers_bool true).adaptRead Error.parcel).bind
          (transfers_given (counted flag given rfl))
  · simp only [flag]
    exact .pure none

end Capacities

section Requests

variable {arena : TypeArena} {method : Method}

/-- A request that suits a method: an argument for each parameter, and if capacities are given and
the method has room for them, one for each result that needs it. -/
structure Request.Suits (arena : TypeArena) (method : Method) (request : Request) : Prop where
  conform : ConformToAll arena method.inParameters request.arguments
  counted : arena.needsCapacityFlag method → ∀ given, request.capacities = some given →
    given.length = (arena.capacityParameters method).length

/-- A request as the callee sees it. -/
def Request.received (arena : TypeArena) (method : Method) (request : Request) : Request where
  arguments := canonicalAll arena method.inParameters request.arguments
  capacities := if arena.needsCapacityFlag method then request.capacities else none

theorem isExhausted_between (bytes : List UInt8) :
    (Reader.between bytes []).isExhausted = true := by
  rw [Reader.isExhausted, Reader.remaining_between]
  rfl

theorem decodeRequest_encodeRequest (acyclic : arena.Acyclic) {request : Request}
    (suits : request.Suits arena method) :
    ∃ bytes, encodeRequest arena method request = .ok bytes ∧
      decodeRequest arena method bytes = .ok (request.received arena method) := by
  obtain ⟨flags, appendsFlags, readsFlags⟩ := transfers_capacities suits.counted
  obtain ⟨bytes, appends, reads⟩ := transfers_arguments acyclic suits.conform
  refine ⟨flags ++ bytes, ?_, ?_⟩
  · apply written_of_appends
    rw [liftExcept_checkCount suits.conform.length_eq]
    exact appendsFlags.bind appends
  · have runFlags : readCapacities arena method (Reader.between [] (flags ++ bytes)) =
        .ok _ (Reader.between flags bytes) := readsFlags [] bytes
    have run := reads flags []
    rw [List.append_nil] at run
    have reached : (get : Read Reader) (Reader.between (flags ++ bytes) []) =
        .ok (Reader.between (flags ++ bytes) []) (Reader.between (flags ++ bytes) []) := rfl
    rw [decodeRequest, readFrom, Reader.start_eq_between, bind_eq_of_ok runFlags,
      bind_eq_of_ok run, bind_eq_of_ok reached, isExhausted_between]
    rfl

end Requests

section Replies

variable {arena : TypeArena} {method : Method}

/-- A string leaves room for its terminator, and a sequence has no more elements than there is room
for. -/
def Fits (value : Value) (capacity : UInt32) : Prop :=
  match value with
  | .string text => text.utf8ByteSize < capacity.toNat
  | .seq elements => elements.length ≤ capacity.toNat
  | _ => True

/-- The results that need a capacity, in order. -/
def boundedResults (arena : TypeArena) (items : List (Parameter × Value)) : List Value :=
  (items.filter fun item => arena.needsCapacity item.1.type).map Prod.snd

theorem string_or_seq_of_needsCapacity {type : TypeId} {value : Value}
    (needs : arena.needsCapacity type) (conforms : Conforms arena type value) :
    (∃ text, value = .string text) ∨ ∃ elements, value = .seq elements := by
  rw [TypeArena.needsCapacity] at needs
  cases conforms with
  | string node fits => exact .inl ⟨_, rfl⟩
  | sequence holds fits conform => exact .inr ⟨_, rfl⟩
  | @integer _ primitive _ _ node shaped =>
      rw [node] at needs
      cases primitive with
      | string => cases shaped
      | _ => cases needs
  | _ node =>
      rw [node] at needs
      cases needs

theorem ite_eq_ok_iff {condition : Prop} [Decidable condition] {failure : Error} :
    (if condition then Except.ok () else Except.error failure) = Except.ok () ↔ condition := by
  by_cases holds : condition
  · simp [holds]
  · simp [holds]

theorem checkCapacity_eq_ok_iff {type : TypeId} {value : Value} (needs : arena.needsCapacity type)
    (conforms : Conforms arena type value) (capacity : UInt32) :
    checkCapacity value capacity.toNat = .ok () ↔ Fits value capacity := by
  rcases string_or_seq_of_needsCapacity needs conforms with ⟨text, rfl⟩ | ⟨elements, rfl⟩
  · exact ite_eq_ok_iff
  · exact ite_eq_ok_iff

section Step

variable {item : Parameter × Value} {rest : List (Parameter × Value)} {capacities : List UInt32}
  {capacity : UInt32}

theorem writeResults_of_free (free : arena.needsCapacity item.1.type = false) :
    writeResults arena capacities (item :: rest) = (do
      writeValue arena item.1.type item.2
      writeResults arena capacities rest) := by
  obtain ⟨parameter, value⟩ := item
  cases capacities <;> simp only [writeResults, free] <;> rfl

theorem writeResults_nil :
    writeResults arena [] (item :: rest) = (do
      writeValue arena item.1.type item.2
      writeResults arena [] rest) := by
  rw [writeResults]
  exact ite_self _

theorem writeResults_of_needs (needs : arena.needsCapacity item.1.type) :
    writeResults arena (capacity :: capacities) (item :: rest) = (do
      writeCapacities.liftExcept (checkCapacity item.2 capacity.toNat)
      writeValue arena item.1.type item.2
      writeResults arena capacities rest) := by
  rw [writeResults, if_pos needs]

theorem boundedResults_of_free (free : arena.needsCapacity item.1.type = false) :
    boundedResults arena (item :: rest) = boundedResults arena rest := by
  rw [boundedResults, List.filter_cons_of_neg (by simp [free])]
  rfl

theorem boundedResults_of_needs (needs : arena.needsCapacity item.1.type) :
    boundedResults arena (item :: rest) = item.2 :: boundedResults arena rest := by
  rw [boundedResults, List.filter_cons_of_pos (by exact needs)]
  rfl

end Step

/-- Results that fit their capacities are written like arguments. -/
theorem writeResults_eq_writeArguments {items : List (Parameter × Value)}
    {capacities : List UInt32} (conform : ∀ item ∈ items, Conforms arena item.1.type item.2)
    (fits : ∀ pair ∈ (boundedResults arena items).zip capacities, Fits pair.1 pair.2) :
    writeResults arena capacities items = writeArguments arena items := by
  induction items generalizing capacities with
  | nil => cases capacities <;> rfl
  | cons item rest ih =>
      have conformRest (later : Parameter × Value) (listed : later ∈ rest) :=
        conform later (List.mem_cons_of_mem item listed)
      cases needs : arena.needsCapacity item.1.type with
      | false =>
          rw [boundedResults_of_free needs] at fits
          rw [writeResults_of_free needs, ih conformRest fits]
          rfl
      | true =>
          rw [boundedResults_of_needs needs] at fits
          cases capacities with
          | nil =>
              rw [writeResults_nil, ih conformRest (by simp)]
              rfl
          | cons capacity others =>
              obtain ⟨fitsHere, fitsRest⟩ := List.forall_mem_cons.mp fits
              have checked : checkCapacity item.2 capacity.toNat = .ok () :=
                (checkCapacity_eq_ok_iff needs (conform item List.mem_cons_self) capacity).mpr
                  fitsHere
              rw [writeResults_of_needs needs, checked, ih conformRest fitsRest]
              rfl

theorem accepts_liftExcept {result : Except Error Unit}
    (accepts : Accepts (writeCapacities.liftExcept result)) : result = .ok () := by
  cases result with
  | ok => rfl
  | error failure => exact absurd accepts (not_accepts_throw failure)

/-- Results are only written if they fit their capacities. -/
theorem fits_of_accepts {items : List (Parameter × Value)} {capacities : List UInt32}
    (conform : ∀ item ∈ items, Conforms arena item.1.type item.2)
    (accepts : Accepts (writeResults arena capacities items)) :
    ∀ pair ∈ (boundedResults arena items).zip capacities, Fits pair.1 pair.2 := by
  induction items generalizing capacities with
  | nil => simp [boundedResults]
  | cons item rest ih =>
      have conformRest (later : Parameter × Value) (listed : later ∈ rest) :=
        conform later (List.mem_cons_of_mem item listed)
      cases needs : arena.needsCapacity item.1.type with
      | false =>
          rw [writeResults_of_free needs] at accepts
          rw [boundedResults_of_free needs]
          exact ih conformRest accepts.of_bind.2
      | true =>
          rw [boundedResults_of_needs needs]
          cases capacities with
          | nil => simp
          | cons capacity others =>
              rw [writeResults_of_needs needs] at accepts
              obtain ⟨checked, written⟩ := accepts.of_bind
              have fitsHere : Fits item.2 capacity :=
                (checkCapacity_eq_ok_iff needs (conform item List.mem_cons_self) capacity).mp
                  (accepts_liftExcept checked)
              exact List.forall_mem_cons.mpr ⟨fitsHere, ih conformRest written.of_bind.2⟩

/-- Each result that needs a capacity fits the one announced in its place, if any were announced. -/
def FitAnnounced (arena : TypeArena) (method : Method) (announced : Option (List UInt32))
    (results : List Value) : Prop :=
  ∀ given, announced = some given → ∀ (k : Nat) (value : Value) (capacity : UInt32),
    (boundedResults arena (method.outParameters.zip results))[k]? = some value →
      given[k]? = some capacity → Fits value capacity

theorem fitAnnounced_iff {announced : Option (List UInt32)} {results : List Value} :
    FitAnnounced arena method announced results ↔
      ∀ pair ∈ (boundedResults arena (method.outParameters.zip results)).zip (announced.getD []),
        Fits pair.1 pair.2 := by
  constructor
  · intro fit pair listed
    cases announced with
    | none => simp at listed
    | some given =>
        obtain ⟨k, found⟩ := List.mem_iff_getElem?.mp listed
        obtain ⟨foundValue, foundCapacity⟩ := List.getElem?_zip_eq_some.mp found
        exact fit given rfl k pair.1 pair.2 foundValue foundCapacity
  · rintro fit given rfl k value capacity foundValue foundCapacity
    apply fit (value, capacity)
    exact List.mem_iff_getElem?.mpr
      ⟨k, List.getElem?_zip_eq_some.mpr ⟨foundValue, foundCapacity⟩⟩

theorem encodeReply_eq_written {request : Request} {results : List Value}
    (conform : ConformToAll arena method.outParameters results) :
    encodeReply arena method request results =
      written
        (writeResults arena (request.capacities.getD []) (method.outParameters.zip results)) := by
  rw [encodeReply, checkCount, if_pos conform.length_eq]
  rfl

theorem fitAnnounced_of_encodeReply {request : Request} {results : List Value}
    (conform : ConformToAll arena method.outParameters results) {reply : List UInt8}
    (encoded : encodeReply arena method request results = .ok reply) :
    FitAnnounced arena method request.capacities results := by
  rw [encodeReply_eq_written conform] at encoded
  obtain ⟨-, each⟩ := List.forall₂_iff_zip.mp conform
  exact fitAnnounced_iff.mpr (fits_of_accepts (fun _ listed => each listed)
    (accepts_of_written encoded))

theorem decodeReply_encodeReply (acyclic : arena.Acyclic) {request : Request}
    {results : List Value} (conform : ConformToAll arena method.outParameters results)
    (fit : FitAnnounced arena method request.capacities results) :
    ∃ reply, encodeReply arena method request results = .ok reply ∧
      decodeReply arena method reply = .ok (canonicalAll arena method.outParameters results) := by
  obtain ⟨-, each⟩ := List.forall₂_iff_zip.mp conform
  have plain := writeResults_eq_writeArguments (fun _ listed => each listed)
    (fitAnnounced_iff.mp fit)
  obtain ⟨reply, appends, reads⟩ := transfers_arguments acyclic conform
  refine ⟨reply, ?_, readFrom_of_reads reads⟩
  rw [encodeReply_eq_written conform, plain]
  exact written_of_appends appends

end Replies

/-- The two ends of a call agree.  A request that suits its method is encoded, and the callee
decodes it with the arguments in canonical form and the capacities that were announced.  Its reply
with conforming results is encoded exactly if each result fits the capacity announced for it, and
the caller decodes the results in canonical form. -/
theorem call_agreement {arena : TypeArena} (acyclic : arena.Acyclic) {method : Method}
    {request : Request} (suits : request.Suits arena method) :
    ∃ bytes, encodeRequest arena method request = .ok bytes ∧
      decodeRequest arena method bytes = .ok (request.received arena method) ∧
      ∀ results, ConformToAll arena method.outParameters results →
        ((∃ reply, encodeReply arena method (request.received arena method) results = .ok reply) ↔
          FitAnnounced arena method (request.received arena method).capacities results) ∧
        ∀ reply, encodeReply arena method (request.received arena method) results = .ok reply →
          decodeReply arena method reply =
            .ok (canonicalAll arena method.outParameters results) := by
  obtain ⟨bytes, encoded, decoded⟩ := decodeRequest_encodeRequest acyclic suits
  refine ⟨bytes, encoded, decoded, ?_⟩
  intro results conform
  refine ⟨⟨fun ⟨_, replied⟩ => fitAnnounced_of_encodeReply conform replied, ?_⟩, ?_⟩
  · intro fit
    obtain ⟨reply, replied, -⟩ := decodeReply_encodeReply acyclic conform fit
    exact ⟨reply, replied⟩
  · intro reply replied
    have fit := fitAnnounced_of_encodeReply conform replied
    obtain ⟨same, again, restored⟩ := decodeReply_encodeReply acyclic conform fit
    obtain rfl : same = reply := Except.ok.inj (again.symm.trans replied)
    exact restored

/-- A method that looks folders up: its results stand between its arguments, and two of the three
need a capacity. -/
def listing : Method :=
  ⟨"List", {}, [⟨"title", .outward, Primitive.string.id, default⟩, ⟨"root", .inward, 14, default⟩,
    ⟨"count", .outward, Primitive.int.id, default⟩, ⟨"depth", .inward, Primitive.int.id, default⟩,
    ⟨"found", .outward, 15, default⟩], default, false⟩

/-- A request with room for a title of three bytes and for one folder. -/
def listingRequest : Request :=
  ⟨[shuffledFolder, .int .i32 3], some [4, 1]⟩

theorem listingRequest_suits : listingRequest.Suits folders listing where
  conform := .cons (conforms_of_accepts ⟨#[], _, rfl⟩)
    (.cons (conforms_of_accepts ⟨#[], _, rfl⟩) .nil)
  counted := by
    rintro - given ⟨⟩
    decide

/-- Results of the listing, with the found folder in a form that is not canonical. -/
def listingResults (title : String) : List Value :=
  [.string title, .int .i32 2, .seq [shuffledFolder]]

theorem listingResults_conform (title : String) (fits : title.utf8ByteSize ≤ Parcel.maxLength) :
    ConformToAll folders listing.outParameters (listingResults title) :=
  .cons (.string rfl fits) (.cons (conforms_of_accepts ⟨#[], _, rfl⟩)
    (.cons (conforms_of_accepts ⟨#[], _, rfl⟩) .nil))

theorem call_agreement_listing :
    listingRequest.Suits folders listing ∧ ∃ bytes,
      encodeRequest folders listing listingRequest = .ok bytes ∧
      decodeRequest folders listing bytes = .ok ⟨[nestedFolder, .int .i32 3], some [4, 1]⟩ ∧
      (∃ reply, encodeReply folders listing ⟨[nestedFolder, .int .i32 3], some [4, 1]⟩
          (listingResults "abc") = .ok reply ∧
        decodeReply folders listing reply =
          .ok [.string "abc", .int .i32 2, .seq [nestedFolder]]) ∧
      ¬∃ reply, encodeReply folders listing ⟨[nestedFolder, .int .i32 3], some [4, 1]⟩
          (listingResults "abcd") = .ok reply := by
  obtain ⟨bytes, encoded, decoded, replies⟩ := call_agreement folders_acyclic listingRequest_suits
  obtain ⟨accepted, restored⟩ := replies _ (listingResults_conform "abc" (by decide))
  obtain ⟨refused, -⟩ := replies _ (listingResults_conform "abcd" (by decide))
  have fit : FitAnnounced folders listing (some [4, 1]) (listingResults "abc") := by
    rintro given ⟨⟩ k value capacity foundValue foundCapacity
    match k with
    | 0 =>
        cases foundValue
        cases foundCapacity
        exact Nat.lt_succ_self 3
    | 1 =>
        cases foundValue
        cases foundCapacity
        exact Nat.le_refl 1
    | k + 2 => cases foundCapacity
  refine ⟨listingRequest_suits, bytes, encoded, decoded, ?_, ?_⟩
  · obtain ⟨reply, replied⟩ := accepted.mpr fit
    exact ⟨reply, replied, restored reply replied⟩
  · intro replied
    have room : Fits (.string "abcd") 4 := refused.mp replied _ rfl 0 _ 4 rfl rfl
    exact Nat.lt_irrefl 4 room

end DriverIdl.Wire
