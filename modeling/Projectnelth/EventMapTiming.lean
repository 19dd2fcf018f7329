import Mathlib
import Projectnelth.EventMapTrace
import Projectnelth.RunInvariant

/-!
# Timing of scheduled events over whole runs

Every event ends in exactly one place, whatever the timer does. As long as no
timer value and no due time wraps, no event is early and events come out by
due time while nothing is taken back from the timer.
-/

namespace Projectnelth.EventMapTiming

open StableMultimap EventMapModel EventMapTrace RunInvariant

/-- A queued event that is due no earlier than its delay after its scheduling. -/
def Waiting (t : Trace) (e : Event ℕ) : Prop :=
  ∃ b, t.births[e.label]?=some b ∧ e.data=b.word ∧
    b.clock ≤ t.clock ∧ b.taken ≤ t.taken ∧ b.clock+b.delay ≤ key e+b.taken

/-- What every recorded call keeps, wrapping or not. -/
structure Accounted (t : Trace) : Prop where
  /-- Every event has its place in the order. -/
  order : t.order.Perm (List.range t.births.length)
  /-- Every event is returned, queued or lost, once. -/
  account : (t.returned.map (fun r => r.event.label)++numbers t.map.eventMap++
    t.dropped.map fun d => d.event.label).Perm (List.range t.births.length)
  /-- No event was lost without a reason. -/
  explained : ∀ d∈t.dropped, Explained d

/-- What every recorded call keeps that does not wrap. -/
structure Timed (t : Trace) : Prop extends Accounted t where
  clock : t.map.time.toNat+t.taken=t.clock
  /-- No queued event is early. -/
  waiting : ∀ e∈t.map.eventMap, Waiting t e
  /-- The map is sorted, equal due times by last insertion. -/
  sorted : t.map.eventMap.Pairwise (Before t.order)
  /-- Nothing is taken back twice. -/
  past : ∀ r∈t.returned, r.taken ≤ t.taken
  /-- Whatever was returned since the timer was last taken back comes first. -/
  first : ∀ r∈t.returned, r.taken=t.taken → key r.event ≤ t.map.time.toNat ∧
    ∀ e∈t.map.eventMap, Before t.order r.event e
  /-- Returned events stand in order while nothing is taken back. -/
  outOrder : t.returned.Pairwise fun r s => r.taken=s.taken → Before t.order r.event s.event
  /-- No event was returned early. -/
  timely : ∀ r∈t.returned, Timely t.births r

/-- A fresh map has an empty history. -/
theorem start_timed (m : EventMap ℕ) : Timed (start m) where
  clock := rfl
  order := List.Perm.refl _
  account := List.Perm.refl _
  waiting e he := by cases he
  sorted := List.Pairwise.nil
  past r hr := by cases hr
  first r hr := by cases hr
  outOrder := List.Pairwise.nil
  timely r hr := by cases hr
  explained d hd := by cases hd

namespace Accounted

variable {t : Trace}

theorem account_nodup (hs : Accounted t) : (t.returned.map (fun r => r.event.label)++
    numbers t.map.eventMap++t.dropped.map fun d => d.event.label).Nodup :=
  hs.account.nodup_iff.mpr List.nodup_range

theorem numbers_nodup (hs : Accounted t) : (numbers t.map.eventMap).Nodup :=
  (List.nodup_append.mp (List.nodup_append.mp hs.account_nodup).1).2.1

theorem returned_not_queued (hs : Accounted t) {r : Returned} (hr : r∈t.returned) :
    r.event.label∉numbers t.map.eventMap := by
  intro hq
  have hd := (List.nodup_append.mp (List.nodup_append.mp hs.account_nodup).1).2.2
  exact hd _ (List.mem_map_of_mem hr) _ hq rfl

theorem queued_mem_order (hs : Accounted t) {e : Event ℕ} (he : e∈t.map.eventMap) :
    e.label∈t.order := by
  refine hs.order.mem_iff.mpr (hs.account.mem_iff.mp ?_)
  exact List.mem_append_left _ (List.mem_append_right _ (List.mem_map_of_mem he))

theorem returned_mem_order (hs : Accounted t) {r : Returned} (hr : r∈t.returned) :
    r.event.label∈t.order := by
  refine hs.order.mem_iff.mpr (hs.account.mem_iff.mp ?_)
  exact List.mem_append_left _ (List.mem_append_left _ (List.mem_map_of_mem hr))

end Accounted

/-- A timely return stays so when more events are scheduled. -/
theorem timely_append {births : List Birth} {r : Returned} (h : Timely births r)
    (bs : List Birth) : Timely (births++bs) r := by
  obtain ⟨b,hb,h⟩ := h
  exact ⟨b,List.getElem?_append_left (List.getElem?_eq_some_iff.mp hb).1 ▸ hb,h⟩

section Shrinks

variable {t : Trace} {op : Op} {out : Option (Event ℕ)} {m : EventMap ℕ}

theorem shrinks_record_eq (h : Shrinks t op out m) : record t op=
    ⟨m,t.births,t.clock+accumulated op,t.taken+takenBack t.map op,t.order,
      t.returned++out.toList.map fun e => ⟨e,t.clock,t.taken⟩,
      t.dropped++(gone t.map.eventMap (out.toList++m.eventMap)).map
        fun e => ⟨e,op,t.map.time,t.map.phase⟩⟩ := by
  simp only [record,h.applied,h.unscheduled,reorder_none h.undelayed,Option.toList_none,
    List.map_nil,List.append_nil]

/-- A removed event is returned or lost with a reason. -/
theorem shrinks_accounted (h : Shrinks t op out m) (hs : Accounted t) :
    Accounted (record t op) := by
  rw [shrinks_record_eq h]
  constructor
  case order => exact hs.order
  case account =>
    have hk := kept_gone_perm h.sublist hs.numbers_nodup
    have hacc := hs.account
    have hr : (out.toList.map fun e => (⟨e,t.clock,t.taken⟩ : Returned)).map
        (fun r => r.event.label)=numbers out.toList := List.map_map
    have hd : ((gone t.map.eventMap (out.toList++m.eventMap)).map fun e =>
        (⟨e,op,t.map.time,t.map.phase⟩ : Dropped)).map (fun d => d.event.label)=
        numbers (gone t.map.eventMap (out.toList++m.eventMap)) := List.map_map
    dsimp only
    rw [List.map_append,List.map_append,hr,hd]
    rw [show numbers (out.toList++m.eventMap)=numbers out.toList++numbers m.eventMap from
      List.map_append] at hk
    simp only [List.perm_iff_count,List.count_append] at hk hacc ⊢
    intro n
    have h1 := hk n
    have h2 := hacc n
    omega
  case explained =>
    intro d hd
    rcases List.mem_append.mp hd with hd | hd
    · exact hs.explained d hd
    · obtain ⟨e,he,rfl⟩ := List.mem_map.mp hd
      exact h.lost e he

/-- The event handed over is the earliest and not early. -/
theorem shrinks_timed (h : Shrinks t op out m) (hs : Timed t) (hw : NoWrap t op) :
    Timed (record t op) := by
  have hacc := shrinks_accounted h hs.toAccounted
  have hc := hs.clock
  have htime := h.timer hw
  have hm : ∀ e∈m.eventMap, e∈t.map.eventMap := fun e he =>
    h.sublist.subset (List.mem_append_right _ he)
  have ho : ∀ e∈out.toList, e∈t.map.eventMap := fun e he =>
    h.sublist.subset (List.mem_append_left _ he)
  have hp := hs.sorted.sublist h.sublist
  rw [shrinks_record_eq h] at hacc ⊢
  refine ⟨hacc,?clock,?waiting,?sorted,?past,?first,?outOrder,?timely⟩
  case clock => dsimp only; omega
  case waiting =>
    intro e he
    obtain ⟨b,hb,hw,h1,h2,h3⟩ := hs.waiting e (hm e he)
    exact ⟨b,hb,hw,h1.trans (Nat.le_add_right _ _),h2.trans (Nat.le_add_right _ _),h3⟩
  case sorted => exact (List.pairwise_append.mp hp).2.1
  case past =>
    intro r hr
    rcases List.mem_append.mp hr with hr | hr
    · exact (hs.past r hr).trans (Nat.le_add_right _ _)
    · obtain ⟨e,_,rfl⟩ := List.mem_map.mp hr
      exact Nat.le_add_right _ _
  case first =>
    intro r hr heq
    dsimp only at heq ⊢
    rcases List.mem_append.mp hr with hr | hr
    · have hle := hs.past r hr
      obtain ⟨h1,h2⟩ := hs.first r hr (by omega)
      exact ⟨by omega,fun e he => h2 e (hm e he)⟩
    · obtain ⟨e,he,rfl⟩ := List.mem_map.mp hr
      have hdue := h.due e (Option.mem_toList.mp he)
      dsimp only at heq ⊢
      exact ⟨by omega,(List.pairwise_append.mp hp).2.2 e he⟩
  case outOrder =>
    refine List.pairwise_append.mpr ⟨hs.outOrder,?_,?_⟩
    · cases out with
      | none => exact List.Pairwise.nil
      | some e => exact List.pairwise_singleton _ _
    · intro r hr s hr' heq
      obtain ⟨e,he,rfl⟩ := List.mem_map.mp hr'
      exact (hs.first r hr heq).2 e (ho e he)
  case timely =>
    intro r hr
    rcases List.mem_append.mp hr with hr | hr
    · exact hs.timely r hr
    obtain ⟨e,he,rfl⟩ := List.mem_map.mp hr
    obtain ⟨b,hb,hw,h1,h2,h3⟩ := hs.waiting e (ho e he)
    have hdue := h.due e (Option.mem_toList.mp he)
    exact ⟨b,hb,hw,h1,h2,by dsimp only; omega⟩

end Shrinks

section Inserts

variable {t : Trace} {op : Op} {word : UInt64} {time : UInt32}

/-- The event that a call puts into the map. -/
def fresh (t : Trace) (word : UInt64) (time : UInt32) : Event ℕ :=
  ⟨t.map.time+time,word,t.births.length⟩

theorem numbers_insert (t : Trace) (word : UInt64) (time : UInt32) :
    (numbers (insert key (fresh t word time) t.map.eventMap)).Perm
      (t.births.length::numbers t.map.eventMap) :=
  (insert_perm key (fresh t word time) t.map.eventMap).map _

/-- The record of a call that puts one new event into the map. -/
theorem inserts_record_eq (h : Inserts t op word time) : record t op=
    ⟨{t.map with eventMap := insert key (fresh t word time) t.map.eventMap},
      t.births++[⟨word,time.toNat,t.clock,t.taken⟩],t.clock,t.taken,
      t.order++[t.births.length],t.returned,t.dropped⟩ := by
  have hgone : gone t.map.eventMap (insert key (fresh t word time) t.map.eventMap)=[] :=
    gone_eq_nil fun n hn => (numbers_insert t word time).mem_iff.mpr (List.mem_cons_of_mem _ hn)
  unfold fresh at hgone ⊢
  simp only [record,h.applied,h.isScheduled,reorder_none h.undelayed,h.still,Option.toList_none,
    Option.toList_some,List.map_nil,List.map_cons,List.append_nil,List.nil_append,Nat.add_zero]
  rw [hgone,List.map_nil,List.append_nil]

/-- The new event is counted once, as queued. -/
theorem inserts_accounted (h : Inserts t op word time) (hs : Accounted t) :
    Accounted (record t op) := by
  have hlen : (t.births++[(⟨word,time.toNat,t.clock,t.taken⟩ : Birth)]).length=
      t.births.length+1 := List.length_append
  rw [inserts_record_eq h]
  constructor
  case order =>
    dsimp only
    rw [hlen,List.range_succ]
    exact hs.order.append_right _
  case account =>
    dsimp only
    rw [hlen,List.range_succ]
    have hacc := hs.account
    have hnum := numbers_insert t word time
    simp only [List.perm_iff_count,List.count_append,List.count_cons,List.count_nil] at hacc hnum ⊢
    intro n
    have h1 := hacc n
    have h2 := hnum n
    omega
  case explained => exact hs.explained

/-- The new event stands behind every event due no later. -/
theorem inserts_timed (h : Inserts t op word time) (hs : Timed t) (hw : NoWrap t op) :
    Timed (record t op) := by
  have hacc := inserts_accounted h hs.toAccounted
  have hkey : key (fresh t word time)=t.map.time.toNat+time.toNat := by
    have hlt := h.noWrap hw
    simp only [fresh,key,UInt32.toNat_add]
    omega
  have hlast : ∀ a : Event ℕ, key a ≤ key (fresh t word time) → a.label∈t.order →
      Before (t.order++[t.births.length]) a (fresh t word time) := fun a hk ho => before_last hk ho
  rw [inserts_record_eq h] at hacc ⊢
  refine ⟨hacc,hs.clock,?waiting,?sorted,hs.past,?first,?outOrder,
    fun r hr => timely_append (hs.timely r hr) _⟩
  case waiting =>
    intro a ha
    rcases mem_insert.mp ha with rfl | ha
    · have hc := hs.clock
      exact ⟨_,List.getElem?_concat_length,rfl,le_rfl,le_rfl,by dsimp only; omega⟩
    · obtain ⟨b,hb,h⟩ := hs.waiting a ha
      exact ⟨b,List.getElem?_append_left (List.getElem?_eq_some_iff.mp hb).1 ▸ hb,h⟩
  case sorted =>
    refine pairwise_insert (ordered_of_sorted hs.sorted)
      (hs.sorted.imp fun h => h.append _) ?_ ?_
    · intro a ha hk
      exact hlast a hk (hs.queued_mem_order ha)
    · intro a ha hk
      exact Or.inl hk
  case first =>
    intro r hr heq
    obtain ⟨h1,h2⟩ := hs.first r hr heq
    refine ⟨h1,fun a ha => ?_⟩
    rcases mem_insert.mp ha with rfl | ha
    · exact hlast r.event (by omega) (hs.returned_mem_order hr)
    · exact (h2 a ha).append _
  case outOrder => exact hs.outOrder.imp fun h heq => (h heq).append _

end Inserts

/-- Two events of which neither is delayed keep their order. -/
theorem before_stay {es : List (Event ℕ)} {op : Op} {order : List ℕ} {a b : Event ℕ}
    (h : Before order a b) (ha : a.label∉moved es op) (hb : b.label∉moved es op) :
    Before (reorder es op order) a b := by
  rcases h with h | ⟨hk,h⟩
  · exact Or.inl h
  · exact Or.inr ⟨hk,sublist_reorder_stay ha hb h⟩

/-- An event that is not delayed comes before a delayed one that is due no earlier. -/
theorem before_cross {es : List (Event ℕ)} {op : Op} {order : List ℕ} {a b : Event ℕ}
    (hk : key a ≤ key b) (ha : a.label∉moved es op) (hb : b.label∈moved es op)
    (hao : a.label∈order) (hbo : b.label∈order) : Before (reorder es op order) a b := by
  rcases Nat.lt_or_eq_of_le hk with h | h
  · exact Or.inl h
  · exact Or.inr ⟨h,sublist_reorder_cross ha hb hao hbo⟩

/-- Inserting what is sorted into the empty multimap sorts it again. -/
theorem insertAll_sorted {order : List ℕ} {xs : List (Event ℕ)} (h : xs.Pairwise (Before order)) :
    (insertAll key xs []).Pairwise (Before order) := by
  refine pairwise_insertAll List.Pairwise.nil List.Pairwise.nil ?_ ?_ ?_
  · refine h.imp fun hab => ⟨fun _ => hab,fun hlt => ?_⟩
    exact absurd hab.le (Nat.not_le.mpr hlt)
  · intro x _ y hy
    cases hy
  · intro x _ y hy
    cases hy

section Delays

variable {t : Trace} {op : Op} {delay : UInt32}

theorem delays_record_eq (h : Delays t op delay) : record t op=
    ⟨delayWhere (delayed op) delay t.map,t.births,t.clock,t.taken,
      reorder t.map.eventMap op t.order,t.returned,t.dropped⟩ := by
  have hgone : gone t.map.eventMap (delayWhere (delayed op) delay t.map).eventMap=[] :=
    gone_eq_nil fun n hn => (numbers_delayWhere (delayed op) delay t.map).mem_iff.mpr hn
  simp only [record,h.applied,h.unscheduled,h.still,Option.toList_none,List.map_nil,
    List.append_nil,List.nil_append,Nat.add_zero]
  rw [hgone,List.map_nil,List.append_nil]

/-- Delayed events stay queued. -/
theorem delays_accounted (h : Delays t op delay) (hs : Accounted t) :
    Accounted (record t op) := by
  have hnum := numbers_delayWhere (delayed op) delay t.map
  rw [delays_record_eq h]
  exact ⟨(reorder_perm _ _ _).trans hs.order,
    ((hnum.append_left _).append_right _).trans hs.account,hs.explained⟩

/-- A delayed event moves behind every event due no later than it. -/
theorem delays_timed (h : Delays t op delay) (hs : Timed t) (hw : NoWrap t op) :
    Timed (record t op) := by
  have hacc := delays_accounted h hs.toAccounted
  have hlate : ∀ e∈t.map.eventMap, delayed op e=true → key (postpone delay e)=key e+delay.toNat := by
    intro e he hd
    have hlt := h.noWrap hw e he hd
    simp only [key,postpone,UInt32.toNat_add] at hlt ⊢
    omega
  have hmoved : ∀ e∈t.map.eventMap, delayed op e=true → e.label∈moved t.map.eventMap op :=
    fun e he hd => List.mem_map_of_mem (List.mem_filter.mpr ⟨he,hd⟩)
  have hstay : ∀ e∈t.map.eventMap, delayed op e=false → e.label∉moved t.map.eventMap op := by
    intro e he hd hm
    obtain ⟨a,ha,hl⟩ := List.mem_map.mp hm
    obtain ⟨ha,hda⟩ := List.mem_filter.mp ha
    rw [List.inj_on_of_nodup_map hs.numbers_nodup ha he hl,hd] at hda
    exact Bool.false_ne_true hda
  have hreturned : ∀ r∈t.returned, r.event.label∉moved t.map.eventMap op := by
    intro r hr hm
    exact hs.returned_not_queued hr ((List.filter_sublist.map _).subset hm)
  rw [delays_record_eq h] at hacc ⊢
  refine ⟨hacc,hs.clock,?waiting,?sorted,hs.past,?first,?outOrder,hs.timely⟩
  case waiting =>
    intro e he
    rcases mem_delayWhere.mp he with ⟨a,ha,hd,rfl⟩ | ⟨he,-⟩
    · obtain ⟨b,hb,hw,h1,h2,h3⟩ := hs.waiting a ha
      exact ⟨b,hb,hw,h1,h2,by rw [hlate a ha hd]; omega⟩
    · exact hs.waiting e he
  case sorted =>
    have hkept : (t.map.eventMap.filter fun e => !delayed op e).Pairwise
        (Before (reorder t.map.eventMap op t.order)) := by
      refine List.Pairwise.imp_of_mem ?_ (hs.sorted.filter fun e => !delayed op e)
      intro a b ha hb hab
      simp only [List.mem_filter,Bool.not_eq_true'] at ha hb
      exact before_stay hab (hstay a ha.1 ha.2) (hstay b hb.1 hb.2)
    have hshift : ((t.map.eventMap.filter (delayed op)).map (postpone delay)).Pairwise
        (Before (reorder t.map.eventMap op t.order)) := by
      refine List.pairwise_map.mpr
        (List.Pairwise.imp_of_mem ?_ (hs.sorted.filter (delayed op)))
      intro a b ha hb hab
      rw [List.mem_filter] at ha hb
      unfold Before
      rw [hlate a ha.1 ha.2,hlate b hb.1 hb.2]
      rcases hab with h | ⟨h,hsub⟩
      · exact Or.inl (by omega)
      · exact Or.inr ⟨by omega,
          sublist_reorder_moved (hmoved a ha.1 ha.2) (hmoved b hb.1 hb.2) hsub⟩
    have hsorted := insertAll_sorted hshift
    refine pairwise_insertAll (ordered_of_sorted hkept) hkept ?_ ?_ ?_
    · refine hsorted.imp fun hab => ⟨fun _ => hab,fun hlt => ?_⟩
      exact absurd hab.le (Nat.not_le.mpr hlt)
    · intro x hx y hy hk
      simp only [mem_insertAll,List.not_mem_nil,or_false,List.mem_map,List.mem_filter] at hx
      obtain ⟨a,⟨ha,hd⟩,rfl⟩ := hx
      simp only [List.mem_filter,Bool.not_eq_true'] at hy
      exact before_cross hk (hstay y hy.1 hy.2) (hmoved a ha hd) (hs.queued_mem_order hy.1)
        (hs.queued_mem_order (e := a) ha)
    · intro x _ y _ hk
      exact Or.inl hk
  case first =>
    intro r hr heq
    obtain ⟨h1,h2⟩ := hs.first r hr heq
    refine ⟨h1,fun e he => ?_⟩
    rcases mem_delayWhere.mp he with ⟨a,ha,hd,rfl⟩ | ⟨he,hd⟩
    · have hle := (h2 a ha).le
      exact before_cross (by rw [hlate a ha hd]; omega) (hreturned r hr) (hmoved a ha hd)
        (hs.returned_mem_order hr) (hs.queued_mem_order (e := a) ha)
    · exact before_stay (h2 e he) (hreturned r hr) (hstay e he hd)
  case outOrder =>
    refine List.Pairwise.imp_of_mem ?_ hs.outOrder
    intro r s hr hs' h heq
    exact before_stay (h heq) (hreturned r hr) (hreturned s hs')

end Delays

/-- Every call keeps the account. -/
theorem record_accounted (t : Trace) (op : Op) (hs : Accounted t) : Accounted (record t op) := by
  cases effect t op with
  | shrinks h => exact shrinks_accounted h hs
  | inserts h => exact inserts_accounted h hs
  | delays h => exact delays_accounted h hs

theorem record_timed (t : Trace) (op : Op) (hs : Timed t) (hw : NoWrap t op) :
    Timed (record t op) := by
  cases effect t op with
  | shrinks h => exact shrinks_timed h hs hw
  | inserts h => exact inserts_timed h hs hw
  | delays h => exact delays_timed h hs hw

/-- In every run each scheduled event is returned, queued or lost for a reason,
once. In every run in which nothing wraps, events are returned after their full
delay, and by due time and last insertion while nothing is taken back. -/
theorem run_timing (m : EventMap ℕ) (ops : List Op) :
    ((run record (start m) ops).returned.map (fun r => r.event.label)++
      numbers (run record (start m) ops).map.eventMap++
      (run record (start m) ops).dropped.map fun d => d.event.label).Perm
      (List.range (run record (start m) ops).births.length) ∧
    (∀ d∈(run record (start m) ops).dropped, Explained d) ∧
    (Meets record NoWrap (start m) ops →
      (∀ r∈(run record (start m) ops).returned, Timely (run record (start m) ops).births r) ∧
      (run record (start m) ops).returned.Pairwise fun r s =>
        r.taken=s.taken → Before (run record (start m) ops).order r.event s.event) := by
  have ha : Accounted (run record (start m) ops) :=
    run_invariant_always record_accounted (start_timed m).toAccounted ops
  refine ⟨ha.account,ha.explained,fun hw => ?_⟩
  have ht := run_invariant record_timed (start_timed m) hw
  exact ⟨ht.timely,ht.outOrder⟩

/-- The guarantee on a run that delays one event and loses another to the phases. -/
theorem run_timing_delayed :
    (run record (start ⟨0,0,0,[]⟩) [.scheduleEvent 1 100 0 0,.scheduleEvent 2 50 3 2,.setPhase 1,
      .delayEvent 1 20,.update 200,.executeEvent]).dropped.length=1 ∧
    ∀ r∈(run record (start ⟨0,0,0,[]⟩) [.scheduleEvent 1 100 0 0,.scheduleEvent 2 50 3 2,
      .setPhase 1,.delayEvent 1 20,.update 200,.executeEvent]).returned,
      Timely (run record (start ⟨0,0,0,[]⟩) [.scheduleEvent 1 100 0 0,.scheduleEvent 2 50 3 2,
        .setPhase 1,.delayEvent 1 20,.update 200,.executeEvent]).births r :=
  ⟨by decide,((run_timing ⟨0,0,0,[]⟩ _).2.2 (by decide)).1⟩

/-- Without the provisos the order fails: time taken back makes a later event
due earlier than one already returned, a delayed event loses its place among
events due at the same time, and a due time past the wrap is due at once. -/
theorem order_needs_provisos :
    (¬∀ m ops, (run record (start m) ops).returned.Pairwise fun r s =>
      r.event.due ≤ s.event.due) ∧
    (¬∀ m ops, (run record (start m) ops).returned.Pairwise fun r s =>
      r.event.due=s.event.due → r.event.label < s.event.label) ∧
    ¬∀ m ops, ∀ r∈(run record (start m) ops).returned,
      Timely (run record (start m) ops).births r := by
  refine ⟨fun h => ?_,fun h => ?_,fun h => ?_⟩
  · exact absurd (h ⟨0,0,0,[]⟩ [.scheduleEvent 1 100 0 0,.update 100,.executeEvent,.delayEvents 50,
      .scheduleEvent 2 10 0 0,.update 10,.executeEvent]) (by decide)
  · exact absurd (h ⟨0,0,0,[]⟩ [.scheduleEvent 1 5 0 0,.scheduleEvent 2 10 0 0,.delayEvent 1 5,
      .update 10,.executeEvent,.executeEvent]) (by decide)
  obtain ⟨b,hb,-,-,-,hd⟩ := h ⟨0,0,0,[]⟩ [.update 0xFFFFFFFF,.scheduleEvent 1 10 0 0,
    .executeEvent] ⟨⟨9,1,0⟩,0xFFFFFFFF,0⟩ (List.mem_singleton.mpr rfl)
  cases hb
  exact absurd hd (by decide)

end Projectnelth.EventMapTiming
