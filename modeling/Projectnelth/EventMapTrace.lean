import Mathlib
import Projectnelth.EventMapModel

/-!
# The history of an event map

A trace numbers the events of an event map in the order of their scheduling
and writes down when each was scheduled, returned or lost. The clock adds up
every `Update`; what `DelayEvents(delay)` and `Reset` take back from the timer
is added up separately. Every call takes events out, puts one in or delays
some; the laws of whole runs start from these three cases.
-/

namespace Projectnelth.EventMapTrace

open StableMultimap EventMapModel

/-- The scheduling of one event. -/
structure Birth where
  word : UInt64
  delay : ℕ
  clock : ℕ
  /-- What had been taken back from the timer by then. -/
  taken : ℕ

/-- An event handed to the script, with the clock and what had been taken back. -/
structure Returned where
  /-- The event, labelled by its number. -/
  event : Event ℕ
  clock : ℕ
  /-- What had been taken back from the timer by then. -/
  taken : ℕ

/-- An event that left the map without being returned. -/
structure Dropped where
  /-- The event, labelled by its number. -/
  event : Event ℕ
  /-- The call during which it left. -/
  op : Op
  time : UInt32
  /-- The phase mask before that call. -/
  phase : UInt16

/-- The event map together with the history of its events. -/
structure Trace where
  map : EventMap ℕ
  /-- The schedulings so far; an event's number is its place here. -/
  births : List Birth
  /-- All milliseconds given to `Update`. -/
  clock : ℕ
  /-- All milliseconds taken back from the timer. -/
  taken : ℕ
  /-- The event numbers in the order in which they were last put into the map. -/
  order : List ℕ
  /-- The returned events, the oldest first. -/
  returned : List Returned
  /-- The lost events, the oldest first. -/
  dropped : List Dropped

/-- The word and delay of the event that a call schedules. -/
def scheduled (m : EventMap ℕ) : Op → Option (UInt64×UInt32)
  | .scheduleEvent id time group phase => some (eventWord id group phase,time)
  | .repeatEvent time => some (m.lastEvent,time)
  | _ => none

/-- The events that a call delays one by one. -/
def delayed : Op → Event ℕ → Bool
  | .delayEvent id _,e => eventId e == id.toUInt64
  | .delayEventsGroup _ group,e => decide (group≠0) && decide (group ≤ 16) && inGroup group e
  | _,_ => false

/-- The milliseconds that a call adds to the clock. -/
def accumulated : Op → ℕ
  | .update time => time.toNat
  | _ => 0

/-- The milliseconds that a call takes back from the timer. -/
def takenBack (m : EventMap ℕ) : Op → ℕ
  | .reset => m.time.toNat
  | .delayEvents delay => min delay.toNat m.time.toNat
  | _ => 0

/-- The numbers of the events in a map. -/
def numbers (es : List (Event ℕ)) : List ℕ := es.map Event.label

/-- Events of the first list whose number is not in the second. -/
def gone (es kept : List (Event ℕ)) : List (Event ℕ) :=
  es.filter fun e => !decide (e.label∈numbers kept)

/-- The order of last insertion after a call: delayed events move to the end. -/
def reorder (es : List (Event ℕ)) (op : Op) (order : List ℕ) : List ℕ :=
  let moved := numbers (es.filter (delayed op))
  order.filter (fun n => !decide (n∈moved))++order.filter fun n => decide (n∈moved)

/-- One call, recorded. -/
def record (t : Trace) (op : Op) : Trace :=
  let result := apply t.births.length t.map op
  let born := (scheduled t.map op).toList.map fun s =>
    (⟨s.1,s.2.toNat,t.clock,t.taken⟩ : Birth)
  {map := result.2
   births := t.births++born
   clock := t.clock+accumulated op
   taken := t.taken+takenBack t.map op
   order := reorder t.map.eventMap op t.order++born.map fun _ => t.births.length
   returned := t.returned++result.1.toList.map fun e => ⟨e,t.clock,t.taken⟩
   dropped := t.dropped++
     (gone t.map.eventMap (result.1.toList++result.2.eventMap)).map
       fun e => ⟨e,op,t.map.time,t.map.phase⟩}

/-- The trace of a map right after `Reset`. -/
def start (m : EventMap ℕ) : Trace := ⟨reset m,[],0,0,[],[],[]⟩

/-- A call after which neither the timer nor a due time has wrapped. -/
def NoWrap (t : Trace) : Op → Prop
  | .update time | .scheduleEvent _ time _ _ | .repeatEvent time =>
    t.map.time.toNat+time.toNat < 2^32
  | .delayEvent id delay =>
    ∀ e∈t.map.eventMap, delayed (.delayEvent id delay) e=true → key e+delay.toNat < 2^32
  | .delayEventsGroup delay group =>
    ∀ e∈t.map.eventMap, delayed (.delayEventsGroup delay group) e=true → key e+delay.toNat < 2^32
  | _ => True

instance (t : Trace) : ∀ op, Decidable (NoWrap t op)
  | .update _ | .scheduleEvent _ _ _ _ | .repeatEvent _ => Nat.decLt _ _
  | .delayEvent _ _ | .delayEventsGroup _ _ => List.decidableBAll _ _
  | .reset | .setPhase _ | .addPhase _ | .removePhase _ | .executeEvent | .delayEvents _
  | .cancelEvent _ | .cancelEventGroup _ => isTrue trivial

/-- Due earlier, or due together and put into the map earlier. -/
def Before (order : List ℕ) (a b : Event ℕ) : Prop :=
  key a < key b ∨ key a=key b ∧ [a.label,b.label].Sublist order

/-- An event returned with its own word and after its full delay. -/
def Timely (births : List Birth) (r : Returned) : Prop :=
  ∃ b, births[r.event.label]?=some b ∧ r.event.data=b.word ∧
    b.clock ≤ r.clock ∧ b.taken ≤ r.taken ∧ b.delay ≤ (r.clock-b.clock)-(r.taken-b.taken)

/-- The four ways in which an event may be lost. -/
def Explained (d : Dropped) : Prop :=
  match d.op with
  | .reset => True
  | .cancelEvent id => eventId d.event=id.toUInt64
  | .cancelEventGroup group => inGroup group d.event=true
  | .executeEvent => d.event.due ≤ d.time ∧ excluded d.phase d.event=true
  | _ => False

/-- A longer order keeps what stood in order. -/
theorem Before.append {order : List ℕ} {a b : Event ℕ} (h : Before order a b) (ns : List ℕ) :
    Before (order++ns) a b := by
  rcases h with h | ⟨hk,hs⟩
  · exact Or.inl h
  · exact Or.inr ⟨hk,hs.trans (List.sublist_append_left order ns)⟩

/-- What stood before an unordered event stands before a new one at the end. -/
theorem before_last {order : List ℕ} {a b : Event ℕ} (hk : key a ≤ key b) (ha : a.label∈order) :
    Before (order++[b.label]) a b := by
  rcases Nat.lt_or_eq_of_le hk with h | h
  · exact Or.inl h
  · exact Or.inr ⟨h,(List.singleton_sublist.mpr ha).append (List.Sublist.refl [b.label])⟩

/-- Whatever of a list is neither kept nor gone twice makes up the list. -/
theorem kept_gone_perm {es kept : List (Event ℕ)} (hs : kept.Sublist es)
    (hn : (numbers es).Nodup) : (numbers kept++numbers (gone es kept)).Perm (numbers es) := by
  have hk : (numbers kept).Sublist (numbers es) := hs.map Event.label
  have hg : (numbers (gone es kept)).Sublist (numbers es) := List.filter_sublist.map Event.label
  have hd : List.Disjoint (numbers kept) (numbers (gone es kept)) := by
    intro n hn hn'
    obtain ⟨e,he,rfl⟩ := List.mem_map.mp hn'
    have hout := (List.mem_filter.mp he).2
    simp only [hn,decide_true,Bool.not_true,Bool.false_eq_true] at hout
  refine (List.perm_ext_iff_of_nodup ((hn.sublist hk).append (hn.sublist hg) hd) hn).mpr ?_
  intro n
  rw [List.mem_append]
  constructor
  · rintro (h | h)
    · exact hk.subset h
    · exact hg.subset h
  · intro h
    by_cases hin : n∈numbers kept
    · exact Or.inl hin
    · obtain ⟨e,he,rfl⟩ := List.mem_map.mp h
      refine Or.inr (List.mem_map_of_mem (List.mem_filter.mpr ⟨he,?_⟩))
      simp only [hin,decide_false,Bool.not_false]

theorem gone_eq_nil {es kept : List (Event ℕ)} (h : ∀ n∈numbers es, n∈numbers kept) :
    gone es kept=[] := by
  refine List.filter_eq_nil_iff.mpr fun e he => ?_
  have hin := h e.label (List.mem_map_of_mem he)
  simp only [hin,decide_true,Bool.not_true,Bool.false_eq_true,not_false_eq_true]

/-- A call that delays nothing leaves the order alone. -/
theorem reorder_none {es : List (Event ℕ)} {op : Op} (h : ∀ e∈es, delayed op e=false)
    (order : List ℕ) : reorder es op order=order := by
  have hm : es.filter (delayed op)=[] := List.filter_eq_nil_iff.mpr fun e he => by
    rw [h e he]; exact Bool.false_ne_true
  unfold reorder
  simp only [hm,numbers,List.map_nil,List.not_mem_nil,decide_false,Bool.not_false,
    List.filter_true,List.filter_false,List.append_nil]

/-- Moving numbers to the end loses and adds none. -/
theorem reorder_perm (es : List (Event ℕ)) (op : Op) (order : List ℕ) :
    (reorder es op order).Perm order := by
  unfold reorder
  refine List.perm_append_comm.trans ?_
  exact List.filter_append_perm _ order

/-- The numbers of the delayed events. -/
def moved (es : List (Event ℕ)) (op : Op) : List ℕ := numbers (es.filter (delayed op))

/-- Two numbers that both stay keep their order. -/
theorem sublist_reorder_stay {es : List (Event ℕ)} {op : Op} {order : List ℕ} {a b : ℕ}
    (ha : a∉moved es op) (hb : b∉moved es op) (h : [a,b].Sublist order) :
    [a,b].Sublist (reorder es op order) := by
  have hf := h.filter fun n => !decide (n∈moved es op)
  simp only [List.filter_cons,ha,hb,decide_false,Bool.not_false,if_true,List.filter_nil] at hf
  exact hf.trans (List.sublist_append_left _ _)

/-- Two numbers that both move keep their order. -/
theorem sublist_reorder_moved {es : List (Event ℕ)} {op : Op} {order : List ℕ} {a b : ℕ}
    (ha : a∈moved es op) (hb : b∈moved es op) (h : [a,b].Sublist order) :
    [a,b].Sublist (reorder es op order) := by
  have hf := h.filter fun n => decide (n∈moved es op)
  simp only [List.filter_cons,ha,hb,decide_true,if_true,List.filter_nil] at hf
  exact hf.trans (List.sublist_append_right _ _)

/-- A number that stays comes before one that moves. -/
theorem sublist_reorder_cross {es : List (Event ℕ)} {op : Op} {order : List ℕ} {a b : ℕ}
    (ha : a∉moved es op) (hb : b∈moved es op) (hao : a∈order) (hbo : b∈order) :
    [a,b].Sublist (reorder es op order) := by
  have h1 : [a].Sublist (order.filter fun n => !decide (n∈moved es op)) :=
    List.singleton_sublist.mpr (List.mem_filter.mpr ⟨hao,by
      simp only [ha,decide_false,Bool.not_false]⟩)
  have h2 : [b].Sublist (order.filter fun n => decide (n∈moved es op)) :=
    List.singleton_sublist.mpr (List.mem_filter.mpr ⟨hbo,by simp only [hb,decide_true]⟩)
  exact h1.append h2

/-- Sorted by last insertion is sorted by due time. -/
theorem Before.le {order : List ℕ} {a b : Event ℕ} (h : Before order a b) : key a ≤ key b := by
  rcases h with h | ⟨h,-⟩
  · exact h.le
  · exact h.le

theorem ordered_of_sorted {order : List ℕ} {es : List (Event ℕ)}
    (h : es.Pairwise (Before order)) : Ordered key es := h.imp Before.le

/-- An event under its later due time. -/
def postpone (delay : UInt32) (e : Event ℕ) : Event ℕ := {e with due := e.due+delay}

/-- The elements after a delay: the chosen ones later, the others unchanged. -/
theorem mem_delayWhere {p : Event ℕ → Bool} {delay : UInt32} {m : EventMap ℕ} {e : Event ℕ} :
    e∈(delayWhere p delay m).eventMap ↔
      (∃ a∈m.eventMap, p a=true ∧ postpone delay a=e) ∨ e∈m.eventMap ∧ p e=false := by
  simp only [delayWhere,mem_insertAll,List.not_mem_nil,or_false,List.mem_map,List.mem_filter,
    Bool.not_eq_true',and_assoc,postpone]

/-- A delay neither adds nor loses an event. -/
theorem numbers_delayWhere (p : Event ℕ → Bool) (delay : UInt32) (m : EventMap ℕ) :
    (numbers (delayWhere p delay m).eventMap).Perm (numbers m.eventMap) := by
  have h1 := (insertAll_perm key (insertAll key ((m.eventMap.filter p).map (postpone delay)) [])
    (m.eventMap.filter fun e => !p e)).map Event.label
  have h2 := (insertAll_perm key ((m.eventMap.filter p).map (postpone delay)) []).map Event.label
  have h3 := (List.filter_append_perm p m.eventMap).map Event.label
  have hl : ((m.eventMap.filter p).map (postpone delay)).map Event.label=
      (m.eventMap.filter p).map Event.label := List.map_map
  rw [List.append_nil,hl] at h2
  rw [List.map_append] at h1 h3
  exact h1.trans ((h2.append_right _).trans h3)

/-- Delaying nothing changes nothing. -/
theorem delayWhere_none {p : Event ℕ → Bool} {m : EventMap ℕ} (h : ∀ e∈m.eventMap, p e=false)
    (delay : UInt32) : delayWhere p delay m=m := by
  have h1 : m.eventMap.filter p=[] := List.filter_eq_nil_iff.mpr fun e he => by
    rw [h e he]; exact Bool.false_ne_true
  have h2 : (m.eventMap.filter fun e => !p e)=m.eventMap := List.filter_eq_self.mpr fun e he => by
    rw [h e he]; rfl
  simp only [delayWhere,h1,h2,List.map_nil,insertAll]

/-- `executeLoop` skips due events that the phases exclude and stops at the
first other one, which it takes if it is due. -/
theorem executeLoop_split (time : UInt32) (phase : UInt16) (es : List (Event ℕ)) :
    ∃ skipped, es=skipped++((executeLoop time phase es).1.toList++(executeLoop time phase es).2) ∧
      (∀ e∈skipped, e.due ≤ time ∧ excluded phase e=true) ∧
      ∀ e∈(executeLoop time phase es).1, e.due ≤ time := by
  induction es with
  | nil => exact ⟨[],rfl,fun _ h => absurd h List.not_mem_nil,fun _ h => absurd h (Option.not_mem_none _)⟩
  | cons e es ih =>
    unfold executeLoop
    split
    · exact ⟨[],rfl,fun _ h => absurd h List.not_mem_nil,fun _ h => absurd h (Option.not_mem_none _)⟩
    rename_i hdue
    have hle : e.due ≤ time := UInt32.not_lt.mp hdue
    split
    · rename_i hex
      obtain ⟨skipped,hes,hs,ho⟩ := ih
      refine ⟨e::skipped,congrArg (e::·) hes,?_,ho⟩
      intro a ha
      rcases List.mem_cons.mp ha with rfl | ha
      · exact ⟨hle,hex⟩
      · exact hs a ha
    · exact ⟨[],rfl,fun _ h => absurd h List.not_mem_nil,fun a ha => by cases ha; exact hle⟩

/-- What `ExecuteEvent` does to the list of events. -/
theorem executeEvent_spec (m : EventMap ℕ) :
    ∃ skipped, m.eventMap=skipped++((executeEvent m).1.toList++(executeEvent m).2.eventMap) ∧
      (∀ e∈skipped, e.due ≤ m.time ∧ excluded m.phase e=true) ∧
      (∀ e∈(executeEvent m).1, e.due ≤ m.time) ∧ (executeEvent m).2.time=m.time := by
  obtain ⟨skipped,hes,hs,ho⟩ := executeLoop_split m.time m.phase m.eventMap
  refine ⟨skipped,?_⟩
  unfold executeEvent
  split
  · rename_i es heq
    rw [heq] at hes ho
    exact ⟨hes,hs,ho,rfl⟩
  · rename_i e es heq
    rw [heq] at hes ho
    exact ⟨hes,hs,ho,rfl⟩

/-- A call that schedules and delays nothing, takes events out and hands over
at most the first of them. -/
structure Shrinks (t : Trace) (op : Op) (out : Option (Event ℕ)) (m : EventMap ℕ) : Prop where
  /-- The call. -/
  applied : apply t.births.length t.map op=(out,m)
  /-- It schedules nothing. -/
  unscheduled : scheduled t.map op=none
  undelayed : ∀ e∈t.map.eventMap, delayed op e=false
  /-- What it hands over stood before what it keeps. -/
  sublist : (out.toList++m.eventMap).Sublist t.map.eventMap
  /-- What it hands over is due. -/
  due : ∀ e∈out, key e ≤ t.map.time.toNat
  /-- The timer follows the clock. -/
  timer : NoWrap t op → m.time.toNat+takenBack t.map op=t.map.time.toNat+accumulated op
  lost : ∀ e∈gone t.map.eventMap (out.toList++m.eventMap), Explained ⟨e,op,t.map.time,t.map.phase⟩

/-- A call that puts one new event into the map. -/
structure Inserts (t : Trace) (op : Op) (word : UInt64) (time : UInt32) : Prop where
  applied : apply t.births.length t.map op=(none,
    {t.map with eventMap := insert key ⟨t.map.time+time,word,t.births.length⟩ t.map.eventMap})
  /-- The event it schedules. -/
  isScheduled : scheduled t.map op=some (word,time)
  undelayed : ∀ e∈t.map.eventMap, delayed op e=false
  /-- The clock stands still. -/
  still : accumulated op=0 ∧ takenBack t.map op=0
  noWrap : NoWrap t op → t.map.time.toNat+time.toNat < 2^32

/-- A call that delays the chosen events one by one. -/
structure Delays (t : Trace) (op : Op) (delay : UInt32) : Prop where
  /-- The call. -/
  applied : apply t.births.length t.map op=(none,delayWhere (delayed op) delay t.map)
  unscheduled : scheduled t.map op=none
  /-- The clock stands still. -/
  still : accumulated op=0 ∧ takenBack t.map op=0
  /-- No due time wraps. -/
  noWrap : NoWrap t op → ∀ e∈t.map.eventMap, delayed op e=true → key e+delay.toNat < 2^32

/-- Everything a call can do. -/
inductive Effect (t : Trace) (op : Op) : Prop where
  | shrinks {out : Option (Event ℕ)} {m : EventMap ℕ} (h : Shrinks t op out m)
  | inserts {word : UInt64} {time : UInt32} (h : Inserts t op word time)
  | delays {d : UInt32} (h : Delays t op d)

/-- What `ExecuteEvent` loses was due and excluded. -/
theorem executeEvent_shrinks (t : Trace) :
    Shrinks t .executeEvent (executeEvent t.map).1 (executeEvent t.map).2 := by
  obtain ⟨skipped,hes,hsk,hout,htime⟩ := executeEvent_spec t.map
  have hsub := List.sublist_append_right skipped
    ((executeEvent t.map).1.toList++(executeEvent t.map).2.eventMap)
  rw [←hes] at hsub
  refine ⟨rfl,rfl,fun _ _ => rfl,hsub,?_,fun _ => by rw [htime]; rfl,?_⟩
  · exact fun e he => UInt32.le_iff_toNat_le.mp (hout e he)
  intro e he
  obtain ⟨he,hnot⟩ := List.mem_filter.mp he
  rw [hes] at he
  rcases List.mem_append.mp he with he | he
  · exact hsk e he
  · have hin := List.mem_map_of_mem (f := Event.label) he
    simp only [numbers,hin,decide_true,Bool.not_true,Bool.false_eq_true] at hnot

/-- A call that keeps the events that pass a test. -/
theorem shrinks_filter {t : Trace} {op : Op} {m : EventMap ℕ} {p : Event ℕ → Bool}
    (ha : apply t.births.length t.map op=(none,m)) (hm : m.eventMap=t.map.eventMap.filter p)
    (hb : scheduled t.map op=none) (hd : ∀ e∈t.map.eventMap, delayed op e=false)
    (htime : NoWrap t op → m.time.toNat+takenBack t.map op=t.map.time.toNat+accumulated op)
    (hlost : ∀ e∈t.map.eventMap, p e=false → Explained ⟨e,op,t.map.time,t.map.phase⟩) :
    Shrinks t op none m := by
  refine ⟨ha,hb,hd,?_,fun _ h => absurd h (Option.not_mem_none _),htime,?_⟩
  · rw [hm]
    exact List.filter_sublist
  intro e he
  obtain ⟨he,hnot⟩ := List.mem_filter.mp he
  refine hlost e he (Bool.eq_false_iff.mpr fun hp => ?_)
  have hin : e.label∈numbers m.eventMap :=
    List.mem_map_of_mem (hm ▸ List.mem_filter.mpr ⟨he,hp⟩)
  simp only [Option.toList_none,List.nil_append,hin,decide_true,Bool.not_true,
    Bool.false_eq_true] at hnot

/-- A call that leaves the events alone. -/
theorem shrinks_same {t : Trace} {op : Op} {m : EventMap ℕ}
    (ha : apply t.births.length t.map op=(none,m)) (hm : m.eventMap=t.map.eventMap)
    (hb : scheduled t.map op=none) (hd : ∀ e∈t.map.eventMap, delayed op e=false)
    (htime : NoWrap t op → m.time.toNat+takenBack t.map op=t.map.time.toNat+accumulated op) :
    Shrinks t op none m :=
  shrinks_filter (p := fun _ => true) ha (by rw [hm,List.filter_true]) hb hd htime
    fun _ _ h => by cases h

/-- Every call removes, inserts one event or delays. -/
theorem effect (t : Trace) (op : Op) : Effect t op := by
  cases op with
  | reset =>
    exact .shrinks (shrinks_filter (p := fun _ => false) rfl (List.filter_false _).symm rfl
      (fun _ _ => rfl) (fun _ => Nat.add_comm _ _) fun _ _ _ => trivial)
  | update time =>
    refine .shrinks (shrinks_same rfl rfl rfl (fun _ _ => rfl) fun hw => ?_)
    simp only [NoWrap] at hw
    simp only [update,takenBack,accumulated,UInt32.toNat_add]
    omega
  | setPhase phase =>
    refine .shrinks (shrinks_same rfl ?_ rfl (fun _ _ => rfl) fun _ => ?_)
    · unfold setPhase
      split
      · rfl
      · split <;> rfl
    · unfold setPhase
      split
      · rfl
      · split <;> rfl
  | addPhase phase =>
    refine .shrinks (shrinks_same rfl ?_ rfl (fun _ _ => rfl) fun _ => ?_) <;>
      unfold addPhase <;> split <;> rfl
  | removePhase phase =>
    refine .shrinks (shrinks_same rfl ?_ rfl (fun _ _ => rfl) fun _ => ?_) <;>
      unfold removePhase <;> split <;> rfl
  | scheduleEvent id time group phase =>
    exact .inserts ⟨rfl,rfl,fun _ _ => rfl,⟨rfl,rfl⟩,fun hw => hw⟩
  | repeatEvent time => exact .inserts ⟨rfl,rfl,fun _ _ => rfl,⟨rfl,rfl⟩,fun hw => hw⟩
  | executeEvent => exact .shrinks (executeEvent_shrinks t)
  | delayEvent id delay =>
    refine Effect.delays (d := delay) ⟨?_,rfl,⟨rfl,rfl⟩,fun hw => hw⟩
    simp only [apply,delayEvent]
    split
    · rename_i hnil
      rw [delayWhere_none (fun e he => absurd (hnil ▸ he) List.not_mem_nil)]
    · rfl
  | delayEvents delay =>
    refine .shrinks (shrinks_same rfl rfl rfl (fun _ _ => rfl) fun _ => ?_)
    simp only [delayEvents,takenBack,accumulated]
    split
    · rename_i hlt
      have hlt' := UInt32.lt_iff_toNat_lt.mp hlt
      rw [UInt32.toNat_sub_of_le _ _ (UInt32.le_of_lt hlt)]
      omega
    · rename_i hge
      have hle := UInt32.le_iff_toNat_le.mp (UInt32.not_lt.mp hge)
      simp only [UInt32.toNat_zero]
      omega
  | delayEventsGroup delay group =>
    refine Effect.delays (d := delay) ⟨?_,rfl,⟨rfl,rfl⟩,fun hw => hw⟩
    simp only [apply,delayEventsGroup]
    split
    · rename_i hskip
      rw [delayWhere_none]
      intro e he
      rcases hskip with rfl | hbig | hnil
      · rfl
      · simp only [delayed,UInt16.not_le.mpr hbig,decide_false,Bool.and_false,Bool.false_and]
      · exact absurd (hnil ▸ he) List.not_mem_nil
    · rename_i hgo
      simp only [not_or,UInt16.not_lt] at hgo
      have hp : delayed (.delayEventsGroup delay group)=inGroup group := by
        funext e
        simp only [delayed,ne_eq,hgo.1,hgo.2.1,not_false_eq_true,decide_true,Bool.true_and]
      rw [hp]
  | cancelEvent id =>
    refine .shrinks (shrinks_filter (p := fun e => !(id.toUInt64 == eventId e)) rfl ?_ rfl
      (fun _ _ => rfl) (fun _ => ?_) ?_)
    · simp only [cancelEvent]
      split
      · rename_i hnil
        rw [hnil,List.filter_nil]
      · rfl
    · unfold cancelEvent
      split <;> rfl
    · intro e _ hp
      have hid : (id.toUInt64 == eventId e)=true := by simpa only [Bool.not_eq_false'] using hp
      exact (beq_iff_eq.mp hid).symm
  | cancelEventGroup group =>
    by_cases hskip : group=0 ∨ 16 < group ∨ t.map.eventMap=[]
    · have ha : apply t.births.length t.map (.cancelEventGroup group)=(none,t.map) := by
        simp only [apply,cancelEventGroup,hskip,if_true]
      exact .shrinks (shrinks_same ha rfl rfl (fun _ _ => rfl) fun _ => rfl)
    · have ha : apply t.births.length t.map (.cancelEventGroup group)=(none,{t.map with
          eventMap := t.map.eventMap.filter fun e => !inGroup group e}) := by
        simp only [apply,cancelEventGroup,hskip,if_false]
      refine .shrinks (shrinks_filter (p := fun e => !inGroup group e) ha rfl rfl (fun _ _ => rfl)
        (fun _ => rfl) ?_)
      intro e _ hp
      have hin : inGroup group e=true := by simpa only [Bool.not_eq_false'] using hp
      exact hin

end Projectnelth.EventMapTrace
