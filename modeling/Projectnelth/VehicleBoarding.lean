import Mathlib
import Projectnelth.VehicleSeats

/-!
# Boarding a vehicle

A request for an empty seat by a unit that neither sits nor waits keeps the invariant, and so
does the execution of a waiting event. A request for an occupied seat is a request for an empty
one, provided its passenger is found and leaves.
-/

namespace Projectnelth.VehicleModel

open KeyedList

variable {v : Vehicle} {e : VehicleJoinEvent}

/-! ## Requests -/

theorem filter_append_event (l : List VehicleJoinEvent) (e : VehicleJoinEvent) :
    (l++[e]).filter (·.waiting)=l.filter (·.waiting)++if e.waiting=true then [e] else [] := by
  rw [List.filter_append,List.filter_cons]
  rfl

/-- A new event joins the others; if it waits, it can be executed and its passenger does not
wait yet. -/
theorem Inv.append (h : Inv v) (hstatus : v.status≠.uninstalling) (hid : e.id=v.created)
    (hgiven : e.toAbort=false → e.seat.isSome=true) (hready : e.waiting=true → Ready v.seats e)
    (halone : e.waiting=true → ∀ other∈v.events,other.waiting=true → other.passenger≠e.passenger) :
    Inv {v with
      events := v.events++[e]
      created := v.created+1
      pendingJoinEvents := v.pendingJoinEvents++if e.waiting=true then [e.id] else []} where
  seatIds := h.seatIds
  counter := h.counter
  oneSeat := h.oneSeat
  eventIds := by
    rw [List.map_append,List.map_singleton,← List.concat_eq_append,List.nodup_concat]
    refine ⟨fun hmem => ?_,h.eventIds⟩
    obtain ⟨other,hother,heq⟩ := List.mem_map.mp hmem
    exact absurd (heq.trans hid) (Nat.ne_of_lt (h.fresh other hother))
  fresh other hother := by
    obtain hmem | hnew := List.mem_append.mp hother
    · exact Nat.lt_succ_of_lt (h.fresh other hmem)
    · rw [List.mem_singleton.mp hnew,hid]
      exact Nat.lt_succ_self _
  pending := by
    rw [filter_append_event,List.map_append,← h.pending]
    split <;> rfl
  given other hother hmark := by
    obtain hmem | hnew := List.mem_append.mp hother
    · exact h.given other hmem hmark
    · rw [List.mem_singleton.mp hnew] at hmark ⊢
      exact hgiven hmark
  ready other hother hw := by
    obtain hmem | hnew := List.mem_append.mp hother
    · exact h.ready other hmem hw
    · rw [List.mem_singleton.mp hnew] at hw ⊢
      exact hready hw
  alone := by
    rw [filter_append_event,List.map_append]
    split
    · rename_i hw
      rw [List.map_singleton,← List.concat_eq_append,List.nodup_concat]
      refine ⟨fun hmem => ?_,h.alone⟩
      obtain ⟨other,hother,heq⟩ := List.mem_map.mp hmem
      obtain ⟨hmem,hwaiting⟩ := List.mem_filter.mp hother
      exact halone hw other hmem hwaiting heq
    · rw [List.map_nil,List.append_nil]
      exact h.alone
  gone hs := absurd hs hstatus

/-- An event that was not given a seat waits for its abortion. -/
theorem Inv.refuse (h : Inv v) (hstatus : v.status≠.uninstalling) (unit : ℕ) :
    Inv (v.newEvent unit none true) := by
  have happend := h.append (e := ⟨v.created,unit,none,true,true,true⟩) hstatus rfl (by rintro ⟨⟩) (by rintro ⟨⟩)
    (by rintro ⟨⟩)
  have hwaiting : (⟨v.created,unit,none,true,true,true⟩ : VehicleJoinEvent).waiting=false := rfl
  rw [hwaiting,if_neg Bool.false_ne_true,List.append_nil] at happend
  exact happend

/-- A request for an empty seat by a unit that neither sits nor waits. -/
theorem Inv.request (h : Inv v) (hstatus : v.status≠.uninstalling) {unit : ℕ}
    {seat : VehicleSeat} (hseat : seat∈v.seats) (hempty : seat.passenger=none)
    (hstanding : ∀ s∈v.seats,s.passenger≠some unit)
    (halone : ∀ e∈v.events,e.waiting=true → e.passenger≠unit) : Inv (v.request unit seat.id) :=
  h.append (e := ⟨v.created,unit,some seat.id,false,true,true⟩) hstatus rfl (fun _ => rfl)
    (fun _ => ⟨rfl,⟨seat,hseat,rfl,hempty⟩,hstanding⟩) fun _ => halone

/-! ## Occupied seats -/

theorem Inv.removePending_request (h : Inv v) (kind : VehicleJoinEvent → Bool) (unit seatId : ℕ)
    (hkind : kind ⟨v.created,unit,some seatId,false,true,true⟩=false) :
    (v.request unit seatId).removePending kind=(v.removePending kind).request unit seatId := by
  have hevents : (v.events.map fun e =>
      if e.id∈v.pendingJoinEvents++[v.created] ∧ kind e=true then {e with toAbort := true}
      else e)=v.events.map fun e =>
      if e.id∈v.pendingJoinEvents ∧ kind e=true then {e with toAbort := true} else e := by
    refine List.map_congr_left fun e he => ?_
    have hne : e.id≠v.created := Nat.ne_of_lt (h.fresh e he)
    have hiff : e.id∈v.pendingJoinEvents++[v.created] ↔ e.id∈v.pendingJoinEvents := by
      rw [List.mem_append,List.mem_singleton]
      exact ⟨fun hmem => hmem.resolve_right hne,Or.inl⟩
    simp only [hiff]
  have hfound : ∀ id∈v.pendingJoinEvents,(v.request unit seatId).event id=v.event id := by
    intro id hid
    obtain ⟨e,he,rfl,_⟩ := h.event_of_pending hid
    unfold Vehicle.event lookup Vehicle.request Vehicle.newEvent
    have hlookup := h.event_of_mem he
    unfold Vehicle.event lookup at hlookup
    rw [List.find?_append,hlookup]
    rfl
  have hnew : (v.request unit seatId).event v.created=
      some ⟨v.created,unit,some seatId,false,true,true⟩ := by
    unfold Vehicle.event lookup Vehicle.request Vehicle.newEvent
    have hnone : v.events.find? (fun e => e.id=v.created)=none :=
      List.find?_eq_none.mpr fun e he heq =>
        absurd (of_decide_eq_true heq) (Nat.ne_of_lt (h.fresh e he))
    rw [List.find?_append,hnone,Option.none_or]
    exact List.find?_cons_of_pos (by simp)
  have hpending : ((v.pendingJoinEvents++[v.created]).filter fun id =>
      !((v.request unit seatId).event id).any kind)=
      (v.pendingJoinEvents.filter fun id => !(v.event id).any kind)++[v.created] := by
    rw [List.filter_append]
    congr 1
    · exact List.filter_congr fun id hid => by rw [hfound id hid]
    · rw [List.filter_cons,hnew,Option.any_some,hkind]
      rfl
  have hlast : (if v.created∈v.pendingJoinEvents++[v.created] ∧
      kind ⟨v.created,unit,some seatId,false,true,true⟩=true then
        (⟨v.created,unit,some seatId,true,true,true⟩ : VehicleJoinEvent)
      else ⟨v.created,unit,some seatId,false,true,true⟩)=
        ⟨v.created,unit,some seatId,false,true,true⟩ :=
    if_neg fun hmark => by rw [hkind] at hmark; cases hmark.2
  unfold Vehicle.removePending
  rw [show (v.request unit seatId).pendingJoinEvents=v.pendingJoinEvents++[v.created] from rfl,
    hpending,show (v.request unit seatId).events=
      v.events++[⟨v.created,unit,some seatId,false,true,true⟩] from rfl,List.map_append,hevents,
    List.map_singleton,hlast]
  rfl

theorem removePassenger_request (v : Vehicle) (unit seatId passenger : ℕ) :
    (v.request unit seatId).removePassenger passenger=
      (v.removePassenger passenger).request unit seatId := by
  have hseatOf : (v.request unit seatId).seatOf passenger=v.seatOf passenger := rfl
  have hriding : (v.request unit seatId).riding=v.riding := rfl
  unfold Vehicle.removePassenger
  rw [hseatOf,hriding]
  by_cases hmem : passenger∈v.riding
  · rw [if_pos hmem,if_pos hmem]
    cases v.seatOf passenger <;> rfl
  · rw [if_neg hmem,if_neg hmem]

/-- The passenger of the seat leaves as if it had left before the request. -/
theorem Inv.exitVehicle_request (h : Inv v) {unit seatId passenger : ℕ}
    (hne : unit≠passenger) (hriding : passenger∈v.riding) :
    (v.request unit seatId).exitVehicle passenger=
      (v.exitVehicle passenger).request unit seatId := by
  unfold Vehicle.exitVehicle
  rw [if_pos hriding,if_pos (show passenger∈(v.request unit seatId).riding from hriding)]
  unfold Vehicle.unapplyControl Vehicle.removePendingEventsForPassenger
  rw [h.removePending_request _ _ _ (decide_eq_false hne),removePassenger_request]
  rfl

theorem Inv.seats_exitVehicle (h : Inv v) {seat : VehicleSeat} {passenger : ℕ}
    (hseat : seat∈v.seats) (hpassenger : seat.passenger=some passenger)
    (hriding : passenger∈v.riding) :
    (v.exitVehicle passenger).seats=replace (·.id) {seat with passenger := none} v.seats := by
  have hfind : v.seatOf passenger=some seat := by
    cases hfind : v.seatOf passenger with
    | none => exact absurd (decide_eq_true hpassenger) (List.find?_eq_none.mp hfind seat hseat)
    | some other =>
      exact congrArg some (eq_of_nodup_filterMap h.oneSeat (seatOf_spec hfind).1 hseat
        (seatOf_spec hfind).2 hpassenger)
  have hfind' : (v.removePendingEventsForPassenger passenger).seatOf passenger=some seat := hfind
  unfold Vehicle.exitVehicle
  rw [if_pos hriding]
  unfold Vehicle.unapplyControl Vehicle.removePassenger
  rw [if_pos (show passenger∈(v.removePendingEventsForPassenger passenger).riding from hriding),
    hfind']
  rfl

/-- Whoever did not sit does not sit after a passenger has left. -/
theorem standing_exitVehicle {unit : ℕ} {seats : List VehicleSeat} {seat : VehicleSeat}
    (hstanding : ∀ s∈seats,s.passenger≠some unit) :
    ∀ s∈replace (·.id) {seat with passenger := none} seats,s.passenger≠some unit := by
  intro s hs
  obtain rfl | hmem := mem_of_mem_replace hs
  · rintro ⟨⟩
  · exact hstanding s hmem

theorem Inv.waiting_removePending (h : Inv v) {kind : VehicleJoinEvent → Bool}
    (he : e∈(v.removePending kind).events) (hw : e.waiting=true) :
    e∈v.events ∧ kind e=false := by
  have hmem : e∈(v.removePending kind).events.filter (·.waiting) := List.mem_filter.mpr ⟨he,hw⟩
  have hfilter : (v.removePending kind).events.filter (·.waiting)=
      v.events.filter fun e => e.waiting && !kind e := filter_mark kind fun e he => h.mem_pending he
  rw [hfilter] at hmem
  obtain ⟨hold,hp⟩ := List.mem_filter.mp hmem
  exact ⟨hold,by simpa [hw] using hp⟩

theorem Inv.waiting_exitVehicle (h : Inv v) {passenger : ℕ}
    (he : e∈(v.exitVehicle passenger).events) (hw : e.waiting=true) : e∈v.events := by
  unfold Vehicle.exitVehicle at he
  split at he
  · have hevents : (v.unapplyControl passenger).events=
        (v.removePendingEventsForPassenger passenger).events := by
      unfold Vehicle.unapplyControl Vehicle.removePassenger Vehicle.forget
      dsimp only
      split
      · split <;> rfl
      · rfl
    rw [hevents] at he
    exact (h.waiting_removePending he hw).1
  · exact he

theorem exitVehicle_status (v : Vehicle) (passenger : ℕ) :
    (v.exitVehicle passenger).status=v.status := by
  unfold Vehicle.exitVehicle Vehicle.unapplyControl Vehicle.removePassenger Vehicle.forget
  split
  · dsimp only
    split
    · split <;> rfl
    · rfl
  · rfl

theorem mem_of_chooseSeat {seatId : ℤ} {seat : VehicleSeat} (h : v.chooseSeat seatId=some seat) :
    seat∈v.seats := by
  unfold Vehicle.chooseSeat at h
  split at h
  · exact List.mem_of_find?_eq_some h
  · exact mem_of_lookup h

/-- What keeps a request harmless: where a seat is chosen, the unit neither sits on the vehicle
nor has a pending join event, and a passenger of that seat is found and rides the vehicle. -/
def Vehicle.Harmless (v : Vehicle) (unit : ℕ) (seatId : ℤ) (found : Bool) : Prop :=
  ∀ seat∈v.chooseSeat seatId,
    (∀ s∈v.seats,s.passenger≠some unit) ∧
    (∀ e∈v.events,e.id∈v.pendingJoinEvents → e.passenger≠unit) ∧
    ∀ passenger∈seat.passenger,found=true ∧ passenger∈v.riding

instance (v : Vehicle) (unit : ℕ) (seatId : ℤ) (found : Bool) :
    Decidable (v.Harmless unit seatId found) := by
  unfold Vehicle.Harmless
  infer_instance

theorem Inv.addPassenger (h : Inv v) {unit : ℕ} {seatId : ℤ} {found : Bool}
    (hcond : v.status≠.uninstalling → v.Harmless unit seatId found) :
    Inv (v.addPassenger unit seatId found) := by
  unfold Vehicle.addPassenger
  by_cases hstatus : v.status=.uninstalling
  · rw [if_pos hstatus]
    exact h
  rw [if_neg hstatus]
  cases hchoose : v.chooseSeat seatId with
  | none => exact h.refuse hstatus unit
  | some seat =>
    obtain ⟨hstanding,halone,hleaves⟩ := hcond hstatus seat hchoose
    have hseat := mem_of_chooseSeat hchoose
    have halone' : ∀ e∈v.events,e.waiting=true → e.passenger≠unit := fun e he hw =>
      halone e he ((h.mem_pending he).mpr hw)
    dsimp only
    cases hpassenger : seat.passenger with
    | none => exact h.request hstatus hseat hpassenger hstanding halone'
    | some passenger =>
      obtain ⟨hfound,hriding⟩ := hleaves passenger hpassenger
      have hne : unit≠passenger := fun heq => hstanding seat hseat (heq ▸ hpassenger)
      have hseats := h.seats_exitVehicle hseat hpassenger hriding
      have hlookup : lookup (·.id) seat.id v.seats=some seat := h.seat_of_mem hseat
      have hempty : {seat with passenger := none}∈(v.exitVehicle passenger).seats := by
        rw [hseats]
        exact mem_replace_self (b := {seat with passenger := none}) hlookup
      rw [hfound]
      dsimp only
      rw [h.exitVehicle_request hne hriding]
      have hstatus' : (v.exitVehicle passenger).status≠.uninstalling := by
        rw [exitVehicle_status]
        exact hstatus
      show Inv ((v.exitVehicle passenger).request unit ({seat with passenger := none} : VehicleSeat).id)
      refine (h.exitVehicle passenger).request hstatus' hempty rfl ?_ fun e he hw =>
        halone' e (h.waiting_exitVehicle he hw) hw
      rw [hseats]
      exact standing_exitVehicle hstanding

/-! ## Execution -/

/-- A unit that did not sit is put on an empty seat that nobody waits for. -/
theorem Inv.sit (h : Inv v) {unit : ℕ} {seat : VehicleSeat} (hseat : seat∈v.seats)
    (hempty : seat.passenger=none) (hstanding : ∀ s∈v.seats,s.passenger≠some unit)
    (hfree : ∀ e∈v.events,e.waiting=true → e.seat≠some seat.id ∧ e.passenger≠unit) :
    Inv {v with
      riding := unit::v.riding
      seats := replace (·.id) {seat with passenger := some unit} v.seats
      usableSeatNum := v.usableSeatNum-seat.seatInfo.canEnterOrExit.toNat} where
  seatIds := by rw [map_key_replace]; exact h.seatIds
  counter := by
    have hlookup : lookup (·.id) seat.id v.seats=some seat := h.seat_of_mem hseat
    have hcount := countP_replace (b := {seat with passenger := some unit}) (·.usable) h.seatIds
      hlookup
    have hold : seat.usable=seat.seatInfo.canEnterOrExit := by
      simp [VehicleSeat.usable,VehicleSeat.isEmpty,hempty]
    have hnew : ({seat with passenger := some unit} : VehicleSeat).usable=false :=
      Bool.false_and _
    rw [hold,hnew,← h.counter] at hcount
    exact (Nat.eq_sub_of_add_eq hcount).symm
  oneSeat := by
    have hlookup : lookup (·.id) seat.id v.seats=some seat := h.seat_of_mem hseat
    have hnew := (replace_perm (b := {seat with passenger := some unit}) h.seatIds
      hlookup).filterMap (·.passenger)
    have hold := (perm_cons_remove h.seatIds hlookup).filterMap (·.passenger)
    rw [List.filterMap_cons_some (f := fun s : VehicleSeat => s.passenger) (b := unit) rfl] at hnew
    rw [List.filterMap_cons_none hempty] at hold
    refine hnew.nodup_iff.mpr (List.nodup_cons.mpr ⟨fun hmem => ?_,hold.nodup_iff.mp h.oneSeat⟩)
    obtain ⟨s,hs,hsits⟩ := List.mem_filterMap.mp hmem
    exact hstanding s (mem_remove.mp hs).1 hsits
  eventIds := h.eventIds
  fresh := h.fresh
  pending := h.pending
  given := h.given
  ready e he hw := by
    obtain ⟨htarget,⟨s,hs,hid,hnone⟩,hstands⟩ := h.ready e he hw
    obtain ⟨hother,hunit⟩ := hfree e he hw
    have hne : s.id≠seat.id := fun heq => hother (hid.trans (congrArg some heq))
    refine ⟨htarget,⟨s,mem_replace_of_ne (b := {seat with passenger := some unit}) hs hne,hid,
      hnone⟩,fun s hs => ?_⟩
    obtain rfl | hs := mem_of_mem_replace hs
    · exact fun heq => hunit (Option.some.inj heq).symm
    · exact hstands s hs
  alone := h.alone
  gone := h.gone

/-- The seat of a waiting event is empty, and where it can be entered or exited the counter is
not zero. -/
theorem Inv.seat_of_waiting (h : Inv v) (he : e∈v.events) (hw : e.waiting=true) :
    ∃ seat∈v.seats,e.seat=some seat.id ∧ seat.passenger=none ∧
      (seat.seatInfo.canEnterOrExit=true → 0 < v.usableSeatNum) := by
  obtain ⟨_,⟨seat,hseat,hid,hempty⟩,_⟩ := h.ready e he hw
  refine ⟨seat,hseat,hid,hempty,fun hcan => ?_⟩
  rw [h.counter]
  refine List.countP_pos_iff.mpr ⟨seat,hseat,?_⟩
  simp [VehicleSeat.usable,VehicleSeat.isEmpty,hempty,hcan]

/-- The execution of a waiting event fails no assertion and keeps the invariant. -/
theorem Inv.execute (h : Inv v) (he : e∈v.events) (hw : e.waiting=true) :
    ∃ v',v.execute e true=some v' ∧ Inv v' := by
  obtain ⟨htarget,_,hstanding⟩ := h.ready e he hw
  obtain ⟨seat,hseat,hid,hempty,hcounter⟩ := h.seat_of_waiting he hw
  have hremoved := h.removePending fun e => e.seat=some seat.id
  have hfree : ∀ other∈(v.removePendingEventsForSeat seat.id).events,other.waiting=true →
      other.seat≠some seat.id ∧ other.passenger≠e.passenger := by
    intro other hother hwaits
    obtain ⟨hmem,hkind⟩ := h.waiting_removePending hother hwaits
    have hseat := of_decide_eq_false hkind
    refine ⟨hseat,fun heq => hseat ?_⟩
    rw [List.inj_on_of_nodup_map h.alone (List.mem_filter.mpr ⟨hmem,hwaits⟩)
      (List.mem_filter.mpr ⟨he,hw⟩) heq]
    exact hid
  have hboard : (v.removePendingEventsForSeat seat.id).board e.passenger seat.id=
      some {v.removePendingEventsForSeat seat.id with
        riding := e.passenger::v.riding
        seats := replace (·.id) {seat with passenger := some e.passenger} v.seats
        usableSeatNum := v.usableSeatNum-seat.seatInfo.canEnterOrExit.toNat} := by
    unfold Vehicle.board
    rw [show (v.removePendingEventsForSeat seat.id).seat seat.id=some seat from h.seat_of_mem hseat]
    refine if_neg ?_
    rintro ⟨hcan,hzero⟩
    exact absurd hzero (Nat.ne_of_gt (hcounter hcan))
  have hsit : Inv _ := Inv.sit hremoved hseat hempty hstanding hfree
  refine ⟨_,?_,hsit.delete (e := e) fun hfalse => ?_⟩
  · unfold Vehicle.execute
    rw [htarget,hid]
    dsimp only
    rw [hboard]
    rfl
  · rw [htarget] at hfalse
    cases hfalse

/-! ## Abortion and uninstalling -/

/-- What the removal of a control aura leaves in the list of the pending events was there. -/
theorem pending_unapplyControl {unit id : ℕ}
    (hid : id∈(v.unapplyControl unit).pendingJoinEvents) : id∈v.pendingJoinEvents := by
  have hpending : (v.unapplyControl unit).pendingJoinEvents=
      (v.removePendingEventsForPassenger unit).pendingJoinEvents := by
    unfold Vehicle.unapplyControl Vehicle.removePassenger Vehicle.forget
    dsimp only
    split
    · split <;> rfl
    · rfl
  rw [hpending] at hid
  exact (List.mem_filter.mp hid).1

theorem Inv.abort (h : Inv v) (he : e∈v.events) {found : Bool} (aura : Bool)
    (hfound : e.id∈v.pendingJoinEvents → found=true) : Inv (v.abort e found aura) := by
  have hlost : e.target=false → e.id∉v.pendingJoinEvents := fun hfalse hpending => by
    have htarget := (h.ready e he ((h.mem_pending he).mp hpending)).target
    rw [hfalse] at htarget
    cases htarget
  unfold Vehicle.abort
  cases found with
  | false => exact h.delete (e := {e with target := false}) fun _ hmem => by cases hfound hmem
  | true =>
    cases aura with
    | false => exact h.delete hlost
    | true =>
      exact (h.unapplyControl e.passenger).delete fun hfalse hmem =>
        hlost hfalse (pending_unapplyControl hmem)

/-- The control auras of the casters are removed one after the other. -/
theorem Inv.unapplyControls (h : Inv v) (casters : List ℕ) :
    Inv (casters.foldl Vehicle.unapplyControl v) := by
  induction casters generalizing v with
  | nil => exact h
  | cons unit casters ih => exact ih (h.unapplyControl unit)

/-- Uninstalling, provided that every event that refers to the vehicle is a pending one. -/
theorem Inv.uninstall (h : Inv v) (minion : Bool) (casters : List ℕ)
    (hrefers : ∀ e∈v.events,e.target=true → e.id∈v.pendingJoinEvents) :
    Inv (v.uninstall minion casters) := by
  unfold Vehicle.uninstall
  by_cases hagain : v.status=.uninstalling ∧ minion=false
  · rw [if_pos hagain]
    exact h
  rw [if_neg hagain]
  refine Inv.unapplyControls ?_ casters
  have hfilter : (v.events.map fun e =>
      if e.id∈v.pendingJoinEvents then {e with toAbort := true,target := false} else e).filter
        (·.waiting)=[] := by
    refine List.filter_eq_nil_iff.mpr fun e he => ?_
    obtain ⟨old,hold,rfl⟩ := List.mem_map.mp he
    split
    · rw [waiting_mark]
      exact Bool.false_ne_true
    · rename_i hmem
      exact fun hw => hmem ((h.mem_pending hold).mpr hw)
  have hshrink := h.shrink (v.events.map fun e =>
      if e.id∈v.pendingJoinEvents then {e with toAbort := true,target := false} else e)
    .uninstalling (by
      rw [List.map_map]
      refine (List.map_congr_left fun e _ => ?_) ▸ List.Sublist.refl _
      rw [Function.comp_apply]
      split <;> rfl)
    (by rw [hfilter]; exact List.nil_sublist _)
    (fun e he hmark => by
      obtain ⟨old,hold,rfl⟩ := List.mem_map.mp he
      split at hmark
      · cases hmark
      · rw [if_neg ‹_›]
        exact h.given old hold hmark)
    (fun _ e he => by
      obtain ⟨old,hold,rfl⟩ := List.mem_map.mp he
      split
      · rfl
      · rename_i hmem
        exact Bool.eq_false_iff.mpr fun htarget => hmem (hrefers old hold htarget))
  rw [hfilter] at hshrink
  exact hshrink

end Projectnelth.VehicleModel
