import Mathlib
import Projectnelth.RunInvariant
import Projectnelth.VehicleBoarding

/-!
# Runs of a vehicle

The agreement of the counter, the seats and the pending events over every run whose requests
are harmless and whose passengers can be charmed with. It fails without: a request for a seat
whose passenger is not found replaces that passenger and counts the seat twice, a unit with two
joins sits on two seats, and a marked event outlives the vehicle that it refers to.
-/

namespace Projectnelth.VehicleModel

open KeyedList RunInvariant

/-- What is to hold of a vehicle. -/
structure Sound (v : Vehicle) : Prop where
  /-- `UsableSeatNum` is the number of the empty seats that can be entered or exited. -/
  counter : v.usableSeatNum=v.seats.countP (·.usable)
  /-- No unit sits on two seats. -/
  oneSeat : (v.seats.filterMap (·.passenger)).Nodup
  once : v.pendingJoinEvents.Nodup
  /-- The pending events are the live ones that were given a seat and are not aborted. -/
  pending : ∀ id,id∈v.pendingJoinEvents ↔
    ∃ e∈v.events,e.id=id ∧ e.seat.isSome=true ∧ e.toAbort=false
  /-- After `Uninstall` no live event refers to the vehicle. -/
  gone : v.status=.uninstalling → ∀ e∈v.events,e.target=false

/-- An execution fails no assertion and puts its passenger on an empty seat. -/
def Boards (v : Vehicle) : Action → Prop
  | .execute id charmed => ∀ e∈v.event id,e.queued=true → e.toAbort=false →
      (v.execute e charmed).isSome=true ∧
      ∃ seat∈v.seats,e.seat=some seat.id ∧ seat.passenger=none
  | _ => True

instance (v : Vehicle) (a : Action) : Decidable (Boards v a) := by
  cases a <;> unfold Boards <;> infer_instance

/-- When a step is harmless. -/
def Careful (v : Vehicle) : Action → Prop
  | .addPassenger unit seatId found => v.status≠.uninstalling → v.Harmless unit seatId found
  | .execute _ charmed => charmed=true
  | .abort id found _ => id∈v.pendingJoinEvents → found=true
  | .uninstall _ _ => ∀ e∈v.events,e.target=true → e.id∈v.pendingJoinEvents
  | _ => True

instance (v : Vehicle) (a : Action) : Decidable (Careful v a) := by
  cases a <;> unfold Careful <;> infer_instance

/-! ## The new vehicle -/

theorem le_id_of_mem_makeSeats {table : List (Option SeatInfo)} {i : ℕ} {seat : VehicleSeat}
    (h : seat∈makeSeats i table) : i ≤ seat.id ∧ seat.passenger=none := by
  induction table generalizing i with
  | nil => cases h
  | cons entry table ih =>
    cases entry with
    | none => exact ⟨Nat.le_of_succ_le (ih h).1,(ih h).2⟩
    | some info =>
      obtain rfl | h := List.mem_cons.mp h
      · exact ⟨Nat.le_refl i,rfl⟩
      · exact ⟨Nat.le_of_succ_le (ih h).1,(ih h).2⟩

theorem nodup_makeSeats (i : ℕ) (table : List (Option SeatInfo)) :
    ((makeSeats i table).map (·.id)).Nodup := by
  induction table generalizing i with
  | nil => exact List.nodup_nil
  | cons entry table ih =>
    cases entry with
    | none => exact ih (i+1)
    | some info =>
      refine List.nodup_cons.mpr ⟨fun hmem => ?_,ih (i+1)⟩
      obtain ⟨seat,hseat,hid⟩ := List.mem_map.mp hmem
      exact absurd (le_id_of_mem_makeSeats hseat).1 (hid ▸ Nat.not_succ_le_self i)

theorem count_makeSeats (i : ℕ) (table : List (Option SeatInfo)) :
    (table.map fun entry => (entry.any (·.canEnterOrExit)).toNat).sum=
      (makeSeats i table).countP (·.usable) := by
  induction table generalizing i with
  | nil => rfl
  | cons entry table ih =>
    rw [List.map_cons,List.sum_cons,ih (i+1)]
    cases entry with
    | none => exact Nat.zero_add _
    | some info =>
      have husable : (⟨i,info,none⟩ : VehicleSeat).usable=info.canEnterOrExit := Bool.true_and _
      rw [makeSeats,List.countP_cons,husable,Option.any_some,Nat.add_comm]
      cases info.canEnterOrExit <;> rfl

theorem inv_create (table : List (Option SeatInfo)) : Inv (create table) where
  seatIds := nodup_makeSeats 0 table
  counter := count_makeSeats 0 table
  oneSeat := by
    have hnone : (makeSeats 0 table).filterMap (·.passenger)=[] :=
      List.filterMap_eq_nil_iff.mpr fun seat hseat => (le_id_of_mem_makeSeats hseat).2
    exact hnone.symm ▸ List.nodup_nil
  eventIds := List.nodup_nil
  fresh := (by rintro _ ⟨⟩)
  pending := rfl
  given := (by rintro _ ⟨⟩)
  ready := (by rintro _ ⟨⟩)
  alone := List.nodup_nil
  gone := (by rintro ⟨⟩)

/-! ## Runs -/

variable {v : Vehicle}

/-- The invariant says what is to hold. -/
theorem Inv.sound (h : Inv v) : Sound v where
  counter := h.counter
  oneSeat := h.oneSeat
  once := h.nodup_pending
  pending id := by
    constructor
    · intro hid
      obtain ⟨e,he,hid,hw⟩ := h.event_of_pending hid
      obtain ⟨hseat,hmark⟩ := Bool.and_eq_true_iff.mp hw
      exact ⟨e,he,hid,hseat,by simpa using hmark⟩
    · rintro ⟨e,he,rfl,_,hmark⟩
      exact (h.mem_pending he).mpr (h.waiting_of_unmarked he hmark)
  gone := h.gone

theorem Inv.processExecute (h : Inv v) (id : ℕ) : Inv (v.processExecute id true) := by
  unfold Vehicle.processExecute
  cases hevent : v.event id with
  | none => exact h
  | some e =>
    dsimp only
    split
    · rename_i hlive
      have he := mem_of_lookup hevent
      obtain ⟨v',hexecute,hinv⟩ := h.execute he (h.waiting_of_unmarked he hlive.2)
      rw [hexecute]
      exact hinv
    · exact h

theorem Inv.processAbort (h : Inv v) {id : ℕ} {found : Bool} (aura : Bool)
    (hfound : id∈v.pendingJoinEvents → found=true) : Inv (v.processAbort id found aura) := by
  unfold Vehicle.processAbort
  cases hevent : v.event id with
  | none => exact h
  | some e =>
    dsimp only
    split
    · exact h.abort (mem_of_lookup hevent) aura fun hmem =>
        hfound (key_of_lookup hevent ▸ hmem)
    · exact h

theorem Inv.step (h : Inv v) {a : Action} (ha : Careful v a) : Inv (step v a) := by
  cases a with
  | addPassenger unit seatId found => exact h.addPassenger ha
  | execute id charmed =>
    obtain rfl : charmed=true := ha
    exact h.processExecute id
  | abort id found aura => exact h.processAbort aura ha
  | removePassenger unit => exact h.removePassenger unit
  | unapplyControl unit => exact h.unapplyControl unit
  | removePendingEventsForPassenger unit => exact h.removePending _
  | boardElsewhere unit => exact h.forget unit
  | uninstall minion casters => exact h.uninstall minion casters ha

/-- Under the invariant a careful execution boards an empty seat. -/
theorem Inv.boards (h : Inv v) {a : Action} (ha : Careful v a) : Boards v a := by
  cases a with
  | execute id charmed =>
    obtain rfl : charmed=true := ha
    intro e hevent _ hmark
    have he := mem_of_lookup hevent
    have hw := h.waiting_of_unmarked he hmark
    obtain ⟨v',hexecute,_⟩ := h.execute he hw
    obtain ⟨seat,hseat,hid,hempty,_⟩ := h.seat_of_waiting he hw
    exact ⟨by rw [hexecute]; rfl,seat,hseat,hid,hempty⟩
  | _ => trivial

/-- Along every run of careful steps of a new vehicle the counter, the seats and the pending
events agree, and every execution fails no assertion and boards an empty seat. -/
theorem seats_agree (table : List (Option SeatInfo)) (actions : List Action)
    (h : Meets step Careful (create table) actions) :
    Sound (run step (create table) actions) ∧ Meets step Boards (create table) actions :=
  ⟨(run_invariant (fun _ _ hv ha => hv.step ha) (inv_create table) h).sound,
    meets_of_invariant (fun _ _ hv ha => hv.boards ha) (fun _ _ hv ha => hv.step ha)
      (inv_create table) h⟩

/-- Two units join for one seat and one is boarded, the other asks again, the first leaves and the
vehicle is uninstalled. -/
theorem seats_agree_sample :
    let actions : List Action := [.addPassenger 7 0 true,.addPassenger 8 0 true,.execute 0 true,
      .abort 1 true true,.addPassenger 8 0 true,.execute 2 true,.addPassenger 9 (-1) true,
      .uninstall false [8,9]]
    Sound (run step (create [some ⟨true,false⟩,some ⟨false,true⟩]) actions) ∧
      Meets step Boards (create [some ⟨true,false⟩,some ⟨false,true⟩]) actions :=
  seats_agree _ _ (by decide)

/-- The passenger of the requested seat is not found and stays, and the execution of the request
fails the assertion on the counter; a unit with two joins sits on two seats; and an event that
found no seat refers to the vehicle after it was uninstalled. -/
theorem seats_disagree :
    (¬Meets step Boards (create [some ⟨true,false⟩])
      [.addPassenger 7 0 true,.execute 0 true,.addPassenger 8 0 false,.execute 1 true]) ∧
    (¬Sound (run step (create [some ⟨true,false⟩,some ⟨true,false⟩])
      [.addPassenger 7 0 true,.addPassenger 7 1 true,.execute 0 true,.execute 1 true])) ∧
    ¬Sound (run step (create []) [.addPassenger 7 (-1) true,.uninstall false []]) :=
  ⟨by decide,fun h => absurd h.oneSeat (by decide),fun h => absurd (h.gone rfl) (by decide)⟩

end Projectnelth.VehicleModel
