import DriverIdl.Proofs.Parcel.Consumption

/-!
# Reads that are made of raw reads

Whatever walks along a parcel looks at it through raw reads, and a raw read refuses to go past the
end.  So wherever such an operation stops, it stops in its parcel.  And as a raw read that succeeds
looks at nothing behind the bytes it takes, an operation that took some bytes takes them whatever
follows, and runs out of bytes wherever they are cut short.
-/

namespace DriverIdl.Parcel

/-- Operations that see a parcel through raw reads only; `embed` makes a failure of the operation
from one of a parcel. -/
inductive MadeOfRaw : {failure : Type} → (Error → failure) → {α : Type} → Read failure α → Prop
  | pure {failure α : Type} {embed : Error → failure} (value : α) :
    MadeOfRaw embed (Pure.pure value : Read failure α)
  | throw {failure α : Type} {embed : Error → failure} (reason : failure) :
    MadeOfRaw embed (MonadExcept.throw reason : Read failure α)
  | raw (count : Nat) : MadeOfRaw (fun failure => failure) (Read.raw count)
  | adapt {failure adapted α : Type} {embed : Error → failure} {read : Read failure α}
    (made : MadeOfRaw embed read) (adapt : failure → adapted) :
    MadeOfRaw (fun failure => adapt (embed failure)) (read.adaptExcept adapt)
  | bind {failure α β : Type} {embed : Error → failure} {first : Read failure α}
    {next : α → Read failure β} (start : MadeOfRaw embed first)
    (finish : ∀ value, MadeOfRaw embed (next value)) : MadeOfRaw embed (first >>= next)

section Primitives

theorem madeOfRaw_number (width : Nat) : MadeOfRaw (fun failure => failure) (Read.number width) :=
  (MadeOfRaw.raw width).bind fun _ => .pure _

theorem madeOfRaw_bool : MadeOfRaw (fun failure => failure) Read.bool := by
  apply (MadeOfRaw.raw 1).bind
  intro content
  split
  · exact .pure _
  · exact .pure _
  · exact .throw _

theorem madeOfRaw_length : MadeOfRaw (fun failure => failure) Read.length := by
  apply (madeOfRaw_number 4).bind
  intro count
  split
  · exact (MadeOfRaw.throw _).bind fun _ => .pure _
  · exact .pure _

theorem madeOfRaw_bytes : MadeOfRaw (fun failure => failure) Read.bytes :=
  madeOfRaw_length.bind .raw

theorem madeOfRaw_string : MadeOfRaw (fun failure => failure) Read.string := by
  apply madeOfRaw_bytes.bind
  intro content
  split
  · exact .pure _
  · exact .throw _

end Primitives

section Places

variable {failure adapted α β : Type}

/-- The place where an operation stops, whether it gives an answer or fails. -/
def stop : EStateM.Result failure Reader α → Reader
  | .ok _ place | .error _ place => place

/-- The place is in the same parcel and not in front of the other one. -/
structure Reader.Leads (reader after : Reader) : Prop where
  sameData : after.data = reader.data
  ahead : reader.index ≤ after.index

theorem Reader.Leads.refl (reader : Reader) : reader.Leads reader :=
  ⟨rfl, Nat.le_refl _⟩

theorem Reader.Leads.trans {first second third : Reader} (start : first.Leads second)
    (finish : second.Leads third) : first.Leads third :=
  ⟨finish.sameData.trans start.sameData, Nat.le_trans start.ahead finish.ahead⟩

theorem leads_raw (count : Nat) (reader : Reader) :
    reader.Leads (stop (Read.raw count reader)) := by
  rw [Read.raw]
  split
  · exact ⟨rfl, Nat.le_add_right _ _⟩
  · exact .refl reader

/-- An operation never leaves its parcel and never moves back, not even when it fails. -/
theorem MadeOfRaw.leads {embed : Error → failure} {read : Read failure α}
    (made : MadeOfRaw embed read) (reader : Reader) : reader.Leads (stop (read reader)) := by
  induction made generalizing reader with
  | pure => exact .refl reader
  | throw => exact .refl reader
  | raw count => exact leads_raw count reader
  | @adapt _ _ _ _ read _ adapt ih =>
      have inner := ih reader
      unfold EStateM.adaptExcept
      cases run : read reader <;> rwa [run] at inner
  | @bind _ _ _ _ first next _ _ startLeads finishLeads =>
      have here := startLeads reader
      change reader.Leads (stop (EStateM.bind first next reader))
      unfold EStateM.bind
      cases run : first reader with
      | ok value middle =>
          rw [run] at here
          exact here.trans (finishLeads value middle)
      | error reason middle => rwa [run] at here

end Places

/-- An operation fails at a place for want of bytes: it wants more than are left where it stops. -/
def Starves {failure α : Type} (embed : Error → failure) (read : Read failure α)
    (reader : Reader) : Prop :=
  ∃ wanted place, read reader = .error (embed (.underflow wanted place.remaining)) place ∧
    place.remaining < wanted

/-- An operation takes exactly some bytes, wherever they stand, and answers a value; where only the
first of them stand it fails for want of the others. -/
structure Needs {failure α : Type} (embed : Error → failure) (read : Read failure α)
    (bytes : List UInt8) (value : α) : Prop where
  reads : Reads read bytes value
  starves : ∀ before short missing, bytes = short ++ missing → missing ≠ [] →
    Starves embed read (.between before short)

section Needs

variable {failure adapted α β : Type} {embed : Error → failure}

theorem Starves.bind {first : Read failure α} {next : α → Read failure β} {reader : Reader}
    (starves : Starves embed first reader) : Starves embed (first >>= next) reader := by
  obtain ⟨wanted, place, run, short⟩ := starves
  refine ⟨wanted, place, ?_, short⟩
  change EStateM.bind first next reader = _
  unfold EStateM.bind
  rw [run]

theorem Starves.bindNext {first : Read failure α} {next : α → Read failure β}
    {reader middle : Reader} {value : α} (done : first reader = .ok value middle)
    (starves : Starves embed (next value) middle) : Starves embed (first >>= next) reader := by
  obtain ⟨wanted, place, run, short⟩ := starves
  exact ⟨wanted, place, (bind_eq_of_ok done).trans run, short⟩

theorem Needs.pure (value : α) : Needs embed (Pure.pure value : Read failure α) [] value where
  reads := .pure value
  starves before short missing split more := by simp_all

theorem Needs.adapt {read : Read failure α} {bytes : List UInt8} {value : α}
    (needs : Needs embed read bytes value) (adapt : failure → adapted) :
    Needs (fun failure => adapt (embed failure)) (read.adaptExcept adapt) bytes value where
  reads := needs.reads.adapt adapt
  starves before short missing split more := by
    obtain ⟨wanted, place, run, few⟩ := needs.starves before short missing split more
    refine ⟨wanted, place, ?_, few⟩
    unfold EStateM.adaptExcept
    rw [run]

theorem Needs.bind {first : Read failure α} {next : α → Read failure β} {bytes rest : List UInt8}
    {value : α} {result : β} (start : Needs embed first bytes value)
    (finish : Needs embed (next value) rest result) :
    Needs embed (first >>= next) (bytes ++ rest) result where
  reads := start.reads.bind finish.reads
  starves before short missing split more := by
    rcases List.append_eq_append_iff.mp split with ⟨reached, rfl, splitRest⟩ | ⟨lost, splitFirst, -⟩
    -- The cut is behind the bytes of the first operation.
    · exact .bindNext (start.reads before reached)
        (finish.starves (before ++ bytes) reached missing splitRest more)
    · by_cases whole : lost = []
      · rw [whole, List.append_nil] at splitFirst
        subst splitFirst
        have run := start.reads before []
        rw [List.append_nil] at run
        have same : rest = missing := List.append_cancel_left split
        exact .bindNext run (finish.starves (before ++ bytes) [] missing same more)
      · exact (start.starves before short lost splitFirst whole).bind

theorem needs_raw (content : List UInt8) :
    Needs (fun failure => failure) (Read.raw content.length) content content where
  reads := by
    intro before after
    have fits : content.length ≤ (Reader.between before (content ++ after)).remaining := by simp
    rw [Read.raw, dif_pos fits, Reader.ahead_between, Reader.advance_between]
  starves before short missing split more := by
    have lacks : (Reader.between before short).remaining < content.length := by
      have := List.length_pos_iff.mpr more
      rw [Reader.remaining_between, split, List.length_append]
      omega
    exact ⟨content.length, .between before short, dif_neg (Nat.not_le.mpr lacks), lacks⟩

/-- An operation that needs whatever bytes it took before it gave an answer. -/
def Frugal (embed : Error → failure) (read : Read failure α) : Prop :=
  Takes read fun value bytes => Needs embed read bytes value

theorem Frugal.bind {first : Read failure α} {next : α → Read failure β}
    (start : Frugal embed first) (finish : ∀ value, Frugal embed (next value)) :
    Frugal embed (first >>= next) := by
  apply Takes.bind start
  intro value bytes needs
  exact (finish value).mono fun result rest needsRest => needs.bind needsRest

theorem MadeOfRaw.frugal {read : Read failure α} (made : MadeOfRaw embed read) :
    Frugal embed read := by
  induction made with
  | pure value => exact .pure (.pure value)
  | throw reason => exact .throw reason
  | raw count =>
      apply (takes_raw count).mono
      rintro content _ ⟨rfl, rfl⟩
      exact needs_raw content
  | adapt _ adapt ih => exact (Takes.adapt ih adapt).mono fun value bytes needs => needs.adapt adapt
  | bind _ _ start finish => exact start.bind finish

/-- It is enough that an operation agrees with a frugal one as long as few bytes are left, for any
bound on their number. -/
theorem Frugal.of_bounded {read : Read failure α}
    (agrees : ∀ bound, ∃ other : Read failure α, Frugal embed other ∧
      ∀ place : Reader, place.remaining ≤ bound → other place = read place) :
    Frugal embed read := by
  intro before rest value after run
  -- What is taken does not depend on the bound.
  have needed (bound : Nat) (enough : rest.length ≤ bound) :
      ∃ other : Read failure α, (∀ place : Reader, place.remaining ≤ bound →
        other place = read place) ∧ ∃ bytes suffix, rest = bytes ++ suffix ∧
          after = .between (before ++ bytes) suffix ∧ Needs embed other bytes value := by
    obtain ⟨other, frugal, same⟩ := agrees bound
    exact ⟨other, same, frugal before rest value after ((same _ (by simpa using enough)).trans run)⟩
  obtain ⟨-, -, bytes, suffix, split, reached, -⟩ := needed _ (Nat.le_refl _)
  have needed (bound : Nat) : ∃ other : Read failure α, (∀ place : Reader,
      place.remaining ≤ bound → other place = read place) ∧ Needs embed other bytes value := by
    obtain ⟨other, same, again, behind, splitAgain, reachedAgain, needs⟩ :=
      needed _ (Nat.le_max_left rest.length bound)
    have sameRemaining := congrArg Reader.remaining (reached.symm.trans reachedAgain)
    rw [Reader.remaining_between, Reader.remaining_between] at sameRemaining
    obtain ⟨rfl, -⟩ := List.append_inj' (split.symm.trans splitAgain) sameRemaining
    exact ⟨other, fun place bounded => same place (Nat.le_trans bounded (Nat.le_max_right _ _)),
      needs⟩
  refine ⟨bytes, suffix, split, reached, ⟨?_, ?_⟩⟩
  · intro front behind
    obtain ⟨other, same, needs⟩ := needed (bytes ++ behind).length
    rw [← same _ (by simp)]
    exact needs.reads front behind
  · intro front short missing splitBytes more
    obtain ⟨other, same, needs⟩ := needed short.length
    obtain ⟨wanted, place, starved, few⟩ := needs.starves front short missing splitBytes more
    exact ⟨wanted, place, (same _ (by simp)).symm.trans starved, few⟩

end Needs

end DriverIdl.Parcel
