import Mathlib
import Projectnelth.VehicleModel

/-!
# What holds of a vehicle

The counter is the number of the empty seats that can be entered or exited, no unit sits
twice, and the pending list is the list of the waiting events. A waiting event refers to the
vehicle, its seat is empty, and its passenger neither sits nor waits a second time: this is
what makes its execution harmless.
-/

namespace Projectnelth.VehicleModel

open KeyedList

/-- Two elements of a list without repeated values have the same value only if they are one. -/
theorem eq_of_nodup_filterMap {α β : Type*} {f : α → Option β} {l : List α}
    (h : (l.filterMap f).Nodup) {a b : α} (ha : a∈l) (hb : b∈l) {c : β} (hfa : f a=some c)
    (hfb : f b=some c) : a=b := by
  have hne : l.Pairwise fun a b => ¬(f a=some c ∧ f b=some c) :=
    (List.pairwise_filterMap.mp h).imp fun hp hab => hp c hab.1 c hab.2 rfl
  have : Std.Symm fun a b : α => ¬(f a=some c ∧ f b=some c) := ⟨fun _ _ h hab => h hab.symm⟩
  exact of_not_not fun hab => hne.forall ha hb hab ⟨hfa,hfb⟩

/-- What makes the execution of a waiting event harmless. -/
structure Ready (seats : List VehicleSeat) (e : VehicleJoinEvent) : Prop where
  /-- The event refers to the vehicle. -/
  target : e.target=true
  seat : ∃ seat∈seats,e.seat=some seat.id ∧ seat.passenger=none
  /-- Its passenger does not sit yet. -/
  standing : ∀ seat∈seats,seat.passenger≠some e.passenger

/-- The invariant of a vehicle. -/
structure Inv (v : Vehicle) : Prop where
  seatIds : (v.seats.map (·.id)).Nodup
  /-- `UsableSeatNum` counts the empty seats that can be entered or exited. -/
  counter : v.usableSeatNum=v.seats.countP (·.usable)
  /-- No unit sits on two seats. -/
  oneSeat : (v.seats.filterMap (·.passenger)).Nodup
  eventIds : (v.events.map (·.id)).Nodup
  /-- The next event gets a new number. -/
  fresh : ∀ e∈v.events,e.id < v.created
  pending : v.pendingJoinEvents=(v.events.filter (·.waiting)).map (·.id)
  /-- An event without a seat bears the mark. -/
  given : ∀ e∈v.events,e.toAbort=false → e.seat.isSome=true
  ready : ∀ e∈v.events,e.waiting=true → Ready v.seats e
  /-- No unit waits twice. -/
  alone : ((v.events.filter (·.waiting)).map (·.passenger)).Nodup
  /-- After `Uninstall` no event refers to the vehicle. -/
  gone : v.status=.uninstalling → ∀ e∈v.events,e.target=false

variable {v : Vehicle} {e : VehicleJoinEvent}

/-! ## Events -/

theorem Inv.event_of_mem (h : Inv v) (he : e∈v.events) : v.event e.id=some e :=
  lookup_of_mem h.eventIds he

/-- The pending ones among the live events are the waiting ones. -/
theorem Inv.mem_pending (h : Inv v) (he : e∈v.events) :
    e.id∈v.pendingJoinEvents ↔ e.waiting=true := by
  rw [h.pending,List.mem_map]
  constructor
  · rintro ⟨e',he',hid⟩
    obtain ⟨hmem,hwaiting⟩ := List.mem_filter.mp he'
    rwa [← List.inj_on_of_nodup_map h.eventIds hmem he hid]
  · exact fun hwaiting => ⟨e,List.mem_filter.mpr ⟨he,hwaiting⟩,rfl⟩

theorem Inv.event_of_pending (h : Inv v) {id : ℕ} (hid : id∈v.pendingJoinEvents) :
    ∃ e∈v.events,e.id=id ∧ e.waiting=true := by
  rw [h.pending] at hid
  obtain ⟨e,he,hid⟩ := List.mem_map.mp hid
  exact ⟨e,(List.mem_filter.mp he).1,hid,(List.mem_filter.mp he).2⟩

theorem Inv.waiting_of_unmarked (h : Inv v) (he : e∈v.events) (hmark : e.toAbort=false) :
    e.waiting=true := by
  rw [VehicleJoinEvent.waiting,h.given e he hmark,hmark]
  rfl

theorem Inv.shrink (h : Inv v) (events : List VehicleJoinEvent) (status : Status)
    (hids : (events.map (·.id)).Sublist (v.events.map (·.id)))
    (hwaiting : (events.filter (·.waiting)).Sublist (v.events.filter (·.waiting)))
    (hgiven : ∀ e∈events,e.toAbort=false → e.seat.isSome=true)
    (hgone : status=.uninstalling → ∀ e∈events,e.target=false) :
    Inv {v with
      events := events
      pendingJoinEvents := (events.filter (·.waiting)).map (·.id)
      status := status} where
  seatIds := h.seatIds
  counter := h.counter
  oneSeat := h.oneSeat
  eventIds := h.eventIds.sublist hids
  fresh e he := by
    obtain ⟨e',he',hid⟩ := List.mem_map.mp (hids.subset (List.mem_map_of_mem he))
    exact hid ▸ h.fresh e' he'
  pending := rfl
  given := hgiven
  ready e he hw := by
    obtain ⟨hmem,hw'⟩ := List.mem_filter.mp (hwaiting.subset (List.mem_filter.mpr ⟨he,hw⟩))
    exact h.ready e hmem hw'
  alone := h.alone.sublist (hwaiting.map _)
  gone := hgone

theorem waiting_mark (e : VehicleJoinEvent) (target : Bool) :
    ({e with toAbort := true,target := target} : VehicleJoinEvent).waiting=false :=
  Bool.and_false _

/-- Of the events of which those of a kind are marked, the others go on waiting. -/
theorem filter_mark {pending : List ℕ} (kind : VehicleJoinEvent → Bool) {l : List VehicleJoinEvent}
    (h : ∀ e∈l,(e.id∈pending ↔ e.waiting=true)) :
    (l.map fun e =>
      if e.id∈pending ∧ kind e=true then {e with toAbort := true} else e).filter (·.waiting)=
      l.filter fun e => e.waiting && !kind e := by
  induction l with
  | nil => rfl
  | cons e l ih =>
    have ih := ih fun e he => h e (List.mem_cons_of_mem _ he)
    have he := h e List.mem_cons_self
    rw [List.map_cons,List.filter_cons,List.filter_cons,ih]
    by_cases hmark : e.id∈pending ∧ kind e=true
    · rw [if_pos hmark,if_neg (by rw [waiting_mark]; decide),if_neg (by simp [hmark.2])]
    rw [if_neg hmark]
    cases hw : e.waiting with
    | false => rfl
    | true =>
      have hkind : kind e=false := by
        simpa [he.mpr hw] using hmark
      rw [hkind]
      rfl

/-- The numbers that stay pending are those of the events that go on waiting. -/
theorem Inv.filter_pending (h : Inv v) (kind : VehicleJoinEvent → Bool) :
    (v.pendingJoinEvents.filter fun id => !(v.event id).any kind)=
      (v.events.filter fun e => e.waiting && !kind e).map (·.id) := by
  rw [h.pending,List.filter_map,List.filter_filter]
  congr 1
  refine List.filter_congr fun e he => ?_
  rw [Function.comp_apply,h.event_of_mem he,Option.any_some,Bool.and_comm]

theorem Inv.removePending (h : Inv v) (kind : VehicleJoinEvent → Bool) :
    Inv (v.removePending kind) := by
  have hids : ∀ l : List VehicleJoinEvent,(l.map fun e =>
      if e.id∈v.pendingJoinEvents ∧ kind e=true then {e with toAbort := true} else e).map (·.id)=
        l.map (·.id) := fun l => by
    rw [List.map_map]
    refine List.map_congr_left fun e _ => ?_
    rw [Function.comp_apply]
    split <;> rfl
  have hwaiting := filter_mark kind fun e he => h.mem_pending he
  have hshrink := h.shrink (v.events.map fun e =>
      if e.id∈v.pendingJoinEvents ∧ kind e=true then {e with toAbort := true} else e)
    v.status (by rw [hids]) (by
      rw [hwaiting]
      exact List.monotone_filter_right _ fun e he => (Bool.and_eq_true_iff.mp he).1)
    (fun e he hmark => by
      obtain ⟨old,hold,rfl⟩ := List.mem_map.mp he
      split at hmark
      · cases hmark
      · rw [if_neg ‹_›]
        exact h.given old hold hmark)
    (fun hstatus e he => by
      obtain ⟨old,hold,rfl⟩ := List.mem_map.mp he
      have htarget := h.gone hstatus old hold
      split <;> exact htarget)
  rw [hwaiting,← h.filter_pending] at hshrink
  exact hshrink

/-- Deleting an event keeps the others, provided a waiting one leaves the list. -/
theorem Inv.remove_event (h : Inv v) (id : ℕ) :
    Inv {v with
      events := remove (·.id) id v.events
      pendingJoinEvents := v.pendingJoinEvents.filter (·≠id)} := by
  have hshrink := h.shrink (remove (·.id) id v.events) v.status
    (List.filter_sublist.map _) (List.filter_sublist.filter _)
    (fun e he => h.given e (mem_remove.mp he).1)
    (fun hstatus e he => h.gone hstatus e (mem_remove.mp he).1)
  have hpending : v.pendingJoinEvents.filter (·≠id)=
      ((remove (·.id) id v.events).filter (·.waiting)).map (·.id) := by
    rw [h.pending,List.filter_map,KeyedList.remove,List.filter_filter,List.filter_filter]
    congr 1
    refine List.filter_congr fun e _ => ?_
    rw [Bool.and_comm]
    rfl
  rw [hpending]
  exact hshrink

theorem Inv.nodup_pending (h : Inv v) : v.pendingJoinEvents.Nodup := by
  rw [h.pending]
  exact h.eventIds.sublist (List.filter_sublist.map _)

/-- The destructor keeps the list of the pending events right, provided an event that lost its
target is not in it. -/
theorem Inv.delete (h : Inv v) (he : e.target=false → e.id∉v.pendingJoinEvents) :
    Inv (v.delete e) := by
  have hpending : (if e.target=true then v.pendingJoinEvents.erase e.id
      else v.pendingJoinEvents)=v.pendingJoinEvents.filter (·≠e.id) := by
    cases htarget : e.target with
    | true =>
      rw [if_pos rfl,h.nodup_pending.erase_eq_filter]
      exact List.filter_congr fun id _ => by rw [bne_eq,decide_not]; rfl
    | false =>
      rw [if_neg Bool.false_ne_true]
      refine (List.filter_eq_self.mpr fun id hid => decide_eq_true ?_).symm
      exact fun heq => he htarget (heq ▸ hid)
  unfold Vehicle.delete
  rw [hpending]
  exact h.remove_event e.id

/-! ## Seats -/

theorem seatOf_spec {unit : ℕ} {seat : VehicleSeat} (h : v.seatOf unit=some seat) :
    seat∈v.seats ∧ seat.passenger=some unit :=
  ⟨List.mem_of_find?_eq_some h,by simpa using List.find?_some h⟩

theorem Inv.seat_of_mem (h : Inv v) {seat : VehicleSeat} (hseat : seat∈v.seats) :
    v.seat seat.id=some seat :=
  lookup_of_mem h.seatIds hseat

theorem empty_of_vacate (hseatIds : (v.seats.map (·.id)).Nodup) {seat other : VehicleSeat}
    (hseat : seat∈v.seats) (hother : other∈v.seats) (hempty : other.passenger=none) :
    ∃ s∈replace (·.id) {seat with passenger := none} v.seats,s.id=other.id ∧ s.passenger=none := by
  by_cases hid : other.id=seat.id
  · exact ⟨{seat with passenger := none},
      @mem_replace_self _ _ _ (·.id) _ _ {seat with passenger := none}
        (@lookup_of_mem _ _ _ (·.id) _ _ hseatIds hseat),hid.symm,rfl⟩
  · exact ⟨other,mem_replace_of_ne (b := {seat with passenger := none}) hother hid,rfl,hempty⟩

theorem Inv.vacate (h : Inv v) {seat : VehicleSeat} {unit : ℕ} (hseat : seat∈v.seats)
    (hunit : seat.passenger=some unit) :
    Inv {v with
      usableSeatNum := v.usableSeatNum+seat.seatInfo.canEnterOrExit.toNat
      seats := replace (·.id) {seat with passenger := none} v.seats} where
  seatIds := by rw [map_key_replace]; exact h.seatIds
  counter := by
    have hlookup : lookup (·.id) seat.id v.seats=some seat := h.seat_of_mem hseat
    have hcount := countP_replace (b := {seat with passenger := none}) (·.usable) h.seatIds hlookup
    have hold : seat.usable=false := by simp [VehicleSeat.usable,VehicleSeat.isEmpty,hunit]
    have hnew : ({seat with passenger := none} : VehicleSeat).usable=
        seat.seatInfo.canEnterOrExit := Bool.true_and _
    rw [hold,hnew,← h.counter] at hcount
    exact hcount.symm
  oneSeat := by
    have hlookup : lookup (·.id) seat.id v.seats=some seat := h.seat_of_mem hseat
    have hnew := (replace_perm (b := {seat with passenger := none}) h.seatIds hlookup).filterMap
      (·.passenger)
    have hold := (perm_cons_remove h.seatIds hlookup).filterMap (·.passenger)
    rw [List.filterMap_cons_none rfl] at hnew
    rw [List.filterMap_cons_some hunit] at hold
    exact hnew.nodup_iff.mpr (hold.nodup_iff.mp h.oneSeat).of_cons
  eventIds := h.eventIds
  fresh := h.fresh
  pending := h.pending
  given := h.given
  ready e he hw := by
    obtain ⟨htarget,⟨s,hs,hid,hempty⟩,hstanding⟩ := h.ready e he hw
    obtain ⟨s',hs',hid',hempty'⟩ := empty_of_vacate h.seatIds hseat hs hempty
    refine ⟨htarget,⟨s',hs',hid.trans (congrArg some hid'.symm),hempty'⟩,fun s hs => ?_⟩
    obtain rfl | hs := mem_of_mem_replace hs
    · rintro ⟨⟩
    · exact hstanding s hs
  alone := h.alone
  gone := h.gone

/-- `RemovePassenger` keeps the invariant. -/
theorem Inv.removePassenger (h : Inv v) (unit : ℕ) : Inv (v.removePassenger unit) := by
  unfold Vehicle.removePassenger
  split
  · split
    · exact h
    · rename_i seat hseat
      exact h.vacate (seatOf_spec hseat).1 (seatOf_spec hseat).2
  · exact h

/-- The invariant does not speak of who rides. -/
theorem Inv.forget (h : Inv v) (unit : ℕ) : Inv (v.forget unit) :=
  ⟨h.seatIds,h.counter,h.oneSeat,h.eventIds,h.fresh,h.pending,h.given,h.ready,h.alone,h.gone⟩

theorem Inv.unapplyControl (h : Inv v) (unit : ℕ) : Inv (v.unapplyControl unit) :=
  ((h.removePending _).removePassenger unit).forget unit

theorem Inv.exitVehicle (h : Inv v) (unit : ℕ) : Inv (v.exitVehicle unit) := by
  unfold Vehicle.exitVehicle
  split
  · exact h.unapplyControl unit
  · exact h

end Projectnelth.VehicleModel
