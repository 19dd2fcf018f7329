import Mathlib
import Projectnelth.EventMapWords

/-!
# Groups, phases and next events

Each event is labelled with the id, the group and the phase it was scheduled with, and with a
number of its own. Cancelling and delaying a group, executing and scheduling the next event are
compared with what they are for, in terms of the labels. They agree unless the group or the
phase is 16, which `ScheduleEvent` does not encode, and `ScheduleNextEvent` agrees in its forms
for numbers of milliseconds only.
-/

namespace Projectnelth.EventMapGroups

open EventMapModel EventMapWords StableMultimap

/-- The arguments of `ScheduleEvent` that make the word. -/
structure Args where
  eventId : UInt32
  group : UInt16
  phase : UInt16
  deriving DecidableEq

/-- What an event is known by. -/
structure Token where
  args : Args
  number : ℕ
  deriving DecidableEq

/-- The word of arguments. -/
def Args.word (a : Args) : UInt64 := eventWord a.eventId a.group a.phase

/-- The arguments of the event after the last one. -/
def Args.next (a : Args) : Args := {a with eventId := a.eventId+1}

/-- A map whose events are labelled with what they were scheduled with. -/
structure Labelled (m : EventMap Token) (last : Args) : Prop where
  words : ∀ e∈m.eventMap,e.data=e.label.args.word
  nodup : (m.eventMap.map Event.label).Nodup
  ordered : Ordered key m.eventMap
  last : m.lastEvent=last.word

/-- The events that calls of `ExecuteEvent` return until there is none, at most `n`. -/
def drain {τ : Type} : ℕ → EventMap τ → List (Event τ)
  | 0,_ => []
  | n+1,m =>
    match executeEvent m with
    | (none,_) => []
    | (some e,m') => e::drain n m'

/-- All events that calls of `ExecuteEvent` return. -/
def returned {τ : Type} (m : EventMap τ) : List (Event τ) := drain m.eventMap.length m

/-- A form of `ScheduleNextEvent`, the ranged ones with equal bounds. -/
inductive Form where
  /-- A number of milliseconds. -/
  | fixed (time : UInt32)
  /-- Two numbers of milliseconds, and what the generator gives. -/
  | ranged (time random : UInt32)
  /-- A duration. -/
  | fixedMs (time : ℤ)
  /-- Two durations, and what the generator gives. -/
  | rangedMs (time : ℤ) (random : UInt32)

/-- The call of a form. -/
def Form.call (form : Form) (label : Token) (m : EventMap Token) : EventMap Token :=
  match form with
  | fixed time => scheduleNextEvent time label m
  | ranged time random => scheduleNextEventRanged random time time label m
  | fixedMs time => scheduleNextEventMs time label m
  | rangedMs time random => scheduleNextEventMsRanged random time time label m

/-- The time of a form. -/
def Form.time : Form → UInt32
  | fixed time | ranged time _ => time
  | fixedMs time | rangedMs time _ => UInt32.ofInt time

/-- A call that reads groups, phases or the last event. -/
inductive Call where
  /-- `CancelEventGroup`. -/
  | cancelGroup (group : UInt16)
  /-- `DelayEvents(delay, group)`. -/
  | delayGroup (delay : UInt32) (group : UInt16)
  /-- `ExecuteEvent` until there is no event to execute. -/
  | execute
  /-- `ScheduleNextEvent`, with the number of the new event. -/
  | scheduleNext (form : Form) (number : ℕ)

/-- An event of the group with its due time put off. -/
def moved (delay : UInt32) (group : UInt16) (e : Event Token) : Event Token :=
  if e.label.args.group=group then {e with due := e.due+delay} else e

/-- What a call is to do, in terms of the labels. -/
def Agrees (m : EventMap Token) (last : Args) : Call → Prop
  | .cancelGroup group => group≠0 → group ≤ 16 →
    cancelEventGroup group m=
      {m with eventMap := m.eventMap.filter fun e => e.label.args.group≠group}
  | .delayGroup delay group => group≠0 → group ≤ 16 →
    (delayEventsGroup delay group m).eventMap.Perm (m.eventMap.map (moved delay group)) ∧
      {delayEventsGroup delay group m with eventMap := m.eventMap}=m
  | .execute => m.phase≠0 → ∀ e∈m.eventMap,e.due ≤ m.time → e.label.args.phase≠0 →
    e.label.args.phase ≤ 16 → (e∈returned m ↔ isInPhase e.label.args.phase m=true)
  | .scheduleNext form number =>
    form.call ⟨last.next,number⟩ m=
      {m with
        eventMap := insert key ⟨m.time+form.time,last.next.word,⟨last.next,number⟩⟩ m.eventMap}

/-- When a call does it. -/
def Holds (m : EventMap Token) (last : Args) : Call → Prop
  | .cancelGroup group => group=16 → ∀ e∈m.eventMap,e.label.args.group≠16
  | .delayGroup delay group => group=16 → delay=0 ∨ ∀ e∈m.eventMap,e.label.args.group≠16
  | .execute => m.phase≠0 → isInPhase 16 m=true ∨
    ∀ e∈m.eventMap,e.due ≤ m.time → e.label.args.phase≠16
  | .scheduleNext (.fixed _) _ | .scheduleNext (.ranged _ _) _ => last.eventId≠0xFFFFFFFF
  | .scheduleNext _ _ => False

variable {m : EventMap Token} {last : Args} {group : UInt16}

/-! ## Groups -/

/-- What the readers find of a group. -/
theorem Labelled.inGroup (h : Labelled m last) (hne : group≠0) (hle : group ≤ 16)
    {e : Event Token} (he : e∈m.eventMap) :
    inGroup group e=decide (group=e.label.args.group ∧ group≠16) := by
  unfold EventMapModel.inGroup
  rw [h.words e he]
  exact word_inGroup hne hle ..

theorem cancelEventGroup_eq (hne : group≠0) (hle : group ≤ 16) :
    cancelEventGroup group m={m with eventMap := m.eventMap.filter fun e => !inGroup group e} := by
  have hgroup : ¬16 < group := UInt16.not_lt.mpr hle
  unfold cancelEventGroup
  split
  · rename_i h
    rcases h with h | h | h
    · exact absurd h hne
    · exact absurd h hgroup
    · obtain ⟨time,phase,lastEvent,eventMap⟩ := m
      obtain rfl : eventMap=[] := h
      rfl
  · rfl

theorem agrees_cancelGroup_iff (h : Labelled m last) :
    Agrees m last (.cancelGroup group) ↔ Holds m last (.cancelGroup group) := by
  constructor
  · rintro hagrees rfl e he hgroup
    have heq := hagrees (by decide) (by decide)
    rw [cancelEventGroup_eq (by decide) (by decide)] at heq
    have hmem : e∈m.eventMap.filter fun e => !inGroup 16 e := List.mem_filter.mpr ⟨he,by
      rw [h.inGroup (by decide) (by decide) he]
      simp⟩
    have hlists : m.eventMap.filter (fun e => !inGroup 16 e)=
        m.eventMap.filter fun e => e.label.args.group≠16 := congrArg EventMap.eventMap heq
    rw [hlists,List.mem_filter,hgroup] at hmem
    exact absurd hmem.2 (by decide)
  · intro hholds hne hle
    rw [cancelEventGroup_eq hne hle]
    refine congrArg (fun l => {m with eventMap := l}) (List.filter_congr fun e he => ?_)
    rw [h.inGroup hne hle he]
    by_cases h16 : group=16
    · have hother := hholds h16 e he
      simp [h16,hother]
    · simp [h16,eq_comm]

theorem delayWhere_perm (p : Event Token → Bool) (delay : UInt32) (m : EventMap Token) :
    (delayWhere p delay m).eventMap.Perm
      (m.eventMap.map fun e => if p e=true then {e with due := e.due+delay} else e) := by
  unfold delayWhere
  refine (insertAll_perm ..).trans ?_
  refine ((insertAll_perm ..).append_right _).trans ?_
  rw [List.append_nil]
  induction m.eventMap with
  | nil => exact List.Perm.nil
  | cons e es ih =>
    rw [List.map_cons]
    cases hp : p e with
    | true =>
      rw [List.filter_cons_of_pos hp,List.filter_cons_of_neg (by rw [hp]; decide),if_pos rfl]
      exact ih.cons _
    | false =>
      rw [List.filter_cons_of_neg (by rw [hp]; decide),List.filter_cons_of_pos (by rw [hp]; rfl),
        if_neg Bool.false_ne_true]
      exact List.perm_middle.trans (ih.cons _)

theorem delayEventsGroup_eq (delay : UInt32) (hne : group≠0) (hle : group ≤ 16) :
    delayEventsGroup delay group m=delayWhere (inGroup group) delay m := by
  have hgroup : ¬16 < group := UInt16.not_lt.mpr hle
  unfold delayEventsGroup
  split
  · rename_i h
    rcases h with h | h | h
    · exact absurd h hne
    · exact absurd h hgroup
    · obtain ⟨time,phase,lastEvent,eventMap⟩ := m
      obtain rfl : eventMap=[] := h
      rfl
  · rfl

theorem agrees_delayGroup_iff (h : Labelled m last) {delay : UInt32} :
    Agrees m last (.delayGroup delay group) ↔ Holds m last (.delayGroup delay group) := by
  constructor
  · rintro hagrees rfl
    by_contra hno
    rw [not_or,not_forall] at hno
    obtain ⟨hdelay,e,hno⟩ := hno
    rw [Classical.not_imp,not_not] at hno
    obtain ⟨he,hgroup⟩ := hno
    have hperm := (hagrees (by decide) (by decide)).1
    rw [delayEventsGroup_eq delay (by decide) (by decide)] at hperm
    -- the readers find no event of the group, so that `e` stays where it is
    have hstay : e∈(delayWhere (inGroup 16) delay m).eventMap := by
      refine (delayWhere_perm ..).mem_iff.mpr (List.mem_map.mpr ⟨e,he,?_⟩)
      rw [h.inGroup (by decide) (by decide) he]
      simp
    obtain ⟨e',he',heq⟩ := List.mem_map.mp (hperm.mem_iff.mp hstay)
    have hlabel : e'.label=e.label := by
      rw [← heq]
      unfold moved
      split <;> rfl
    obtain rfl : e'=e := List.inj_on_of_nodup_map h.nodup he' he hlabel
    unfold moved at heq
    rw [if_pos hgroup] at heq
    have hdue : e'.due+delay=e'.due := congrArg Event.due heq
    exact hdelay (by simpa using hdue)
  · intro hholds hne hle
    rw [delayEventsGroup_eq delay hne hle]
    refine ⟨(delayWhere_perm ..).trans (List.Perm.of_eq (List.map_congr_left fun e he => ?_)),rfl⟩
    rw [h.inGroup hne hle he]
    unfold moved
    by_cases h16 : group=16
    · rcases hholds h16 with hzero | hnone
      · rw [hzero,UInt32.add_zero]
        simp
      · have hother := hnone e he
        simp [h16,hother]
    · simp [h16,eq_comm]

/-! ## Phases -/

/-- One call of `ExecuteEvent` takes the first due event that is not excluded. -/
theorem executeLoop_spec {τ : Type} (time : UInt32) (phase : UInt16) (es : List (Event τ)) :
    (∀ rest,executeLoop time phase es=(none,rest) →
      (es.takeWhile (·.due ≤ time)).filter (fun e => !excluded phase e)=[]) ∧
    ∀ e rest,executeLoop time phase es=(some e,rest) → rest.length < es.length ∧
      (es.takeWhile (·.due ≤ time)).filter (fun e => !excluded phase e)=
        e::(rest.takeWhile (·.due ≤ time)).filter fun e => !excluded phase e := by
  induction es with
  | nil => exact ⟨fun _ _ => rfl,fun e rest h => by cases h⟩
  | cons e es ih =>
    unfold executeLoop
    split
    · rename_i hdue
      refine ⟨fun _ _ => ?_,fun e rest h => by cases h⟩
      rw [List.takeWhile_cons_of_neg (by simpa using hdue)]
      rfl
    · rename_i hdue
      have hle : e.due ≤ time := UInt32.not_lt.mp hdue
      rw [List.takeWhile_cons_of_pos (by simpa using hle)]
      split
      · rename_i hex
        rw [List.filter_cons_of_neg (by rw [hex]; decide)]
        exact ⟨ih.1,fun e' rest h => ⟨(ih.2 e' rest h).1.trans (Nat.lt_succ_self _),
          (ih.2 e' rest h).2⟩⟩
      · rename_i hex
        refine ⟨(by rintro _ ⟨⟩),fun e' rest h => ?_⟩
        obtain ⟨rfl,rfl⟩ : e=e' ∧ es=rest := by simpa using h
        rw [List.filter_cons_of_pos (by rw [Bool.not_eq_true] at hex; rw [hex]; rfl)]
        exact ⟨Nat.lt_succ_self _,rfl⟩

/-- Calls of `ExecuteEvent` return the due events that are not excluded, in their order. -/
theorem drain_eq {τ : Type} {n : ℕ} {m : EventMap τ} (hn : m.eventMap.length ≤ n) :
    drain n m=(m.eventMap.takeWhile (·.due ≤ m.time)).filter fun e => !excluded m.phase e := by
  induction n generalizing m with
  | zero =>
    rw [List.length_eq_zero_iff.mp (Nat.le_zero.mp hn)]
    rfl
  | succ n ih =>
    obtain ⟨hnone,hsome⟩ := executeLoop_spec m.time m.phase m.eventMap
    unfold drain executeEvent
    cases hloop : executeLoop m.time m.phase m.eventMap with
    | mk out rest =>
      cases out with
      | none => exact (hnone rest hloop).symm
      | some e =>
        obtain ⟨hlt,heq⟩ := hsome e rest hloop
        rw [heq]
        dsimp only
        refine congrArg (e::·) (ih ?_)
        show rest.length ≤ n
        omega

theorem mem_takeWhile_due {es : List (Event Token)} (h : Ordered key es) {time : UInt32}
    {e : Event Token} : e∈es.takeWhile (·.due ≤ time) ↔ e∈es ∧ e.due ≤ time := by
  induction es with
  | nil => simp
  | cons x es ih =>
    obtain ⟨hhead,htail⟩ := List.pairwise_cons.mp h
    by_cases hx : x.due ≤ time
    · rw [List.takeWhile_cons_of_pos (by simpa using hx),List.mem_cons,List.mem_cons,ih htail,
        or_and_right]
      refine or_congr_left ⟨fun heq => ⟨heq,heq ▸ hx⟩,And.left⟩
    · rw [List.takeWhile_cons_of_neg (by simpa using hx)]
      refine ⟨(by rintro ⟨⟩),fun ⟨he,hdue⟩ => ?_⟩
      rcases List.mem_cons.mp he with rfl | he
      · exact absurd hdue hx
      · have hkey : x.due.toNat ≤ e.due.toNat := hhead e he
        exact absurd (UInt32.le_iff_toNat_le.mpr (hkey.trans (UInt32.le_iff_toNat_le.mp hdue))) hx

theorem Labelled.mem_returned (h : Labelled m last) {e : Event Token} (he : e∈m.eventMap)
    (hdue : e.due ≤ m.time) : e∈returned m ↔ excluded m.phase e=false := by
  rw [returned,drain_eq le_rfl,List.mem_filter,mem_takeWhile_due h.ordered,Bool.not_eq_true']
  exact and_iff_right ⟨he,hdue⟩

theorem agrees_execute_iff (h : Labelled m last) :
    Agrees m last .execute ↔ Holds m last .execute := by
  have hword : ∀ e∈m.eventMap,e.data=eventWord e.label.args.eventId e.label.args.group
      e.label.args.phase := h.words
  have h16 : ∀ e∈m.eventMap,e.label.args.phase=16 → excluded m.phase e=false := fun e he hphase =>
    not_excluded_of_unphased (hword e he) (by rw [hphase]; decide) m.phase
  constructor
  · intro hagrees hmask
    by_contra hno
    rw [not_or,not_forall] at hno
    obtain ⟨hin,e,hno⟩ := hno
    rw [Classical.not_imp,Classical.not_imp,not_not] at hno
    obtain ⟨he,hdue,hphase⟩ := hno
    have hreturned := hagrees hmask e he hdue (by rw [hphase]; decide) (by rw [hphase]; decide)
    rw [h.mem_returned he hdue,hphase] at hreturned
    exact hin (hreturned.mp (h16 e he hphase))
  · intro hholds hmask e he hdue hne hle
    rw [h.mem_returned he hdue]
    by_cases hphase : e.label.args.phase=16
    · rw [hphase]
      rcases hholds hmask with hin | hnone
      · exact ⟨fun _ => hin,fun _ => h16 e he hphase⟩
      · exact absurd hphase (hnone e he hdue)
    · rw [excluded_of_phased (hword e he) hne (UInt16.lt_of_le_of_ne hle hphase) m hmask,
        Bool.not_eq_false']

/-! ## The next event -/

theorem urand_same (random time : UInt32) : urand random time time=time := by
  unfold urand
  rw [if_pos (UInt32.le_refl time),if_pos rfl]

/-- Two insertions at one place differ unless the elements are the same. -/
theorem insert_inj {x y : Event Token} {es : List (Event Token)} :
    insert key x es=insert key y es ↔ x=y := by
  refine ⟨fun heq => ?_,fun heq => heq ▸ rfl⟩
  have hperm : (x::es).Perm (y::es) :=
    (insert_perm key x es).symm.trans (heq ▸ insert_perm key y es)
  by_contra hne
  have hcount := hperm.count_eq x
  rw [List.count_cons_self,List.count_cons_of_ne (Ne.symm hne)] at hcount
  omega

theorem agrees_scheduleNext_iff (h : Labelled m last) {form : Form} {number : ℕ} :
    Agrees m last (.scheduleNext form number) ↔ Holds m last (.scheduleNext form number) := by
  have hnext : ∀ time,scheduleNextEvent time ⟨last.next,number⟩ m=
      {m with
        eventMap := insert key ⟨m.time+time,last.next.word,⟨last.next,number⟩⟩ m.eventMap} ↔
          last.eventId≠0xFFFFFFFF := by
    intro time
    rw [← eventWord_add_one_iff last.eventId last.group last.phase]
    unfold scheduleNextEvent
    rw [EventMap.mk.injEq,insert_inj,h.last,Event.mk.injEq]
    simp only [true_and,and_true]
    rfl
  have hrepeat : ∀ time,¬repeatEvent time ⟨last.next,number⟩ m=
      {m with
        eventMap := insert key ⟨m.time+time,last.next.word,⟨last.next,number⟩⟩ m.eventMap} := by
    intro time
    unfold repeatEvent
    rw [EventMap.mk.injEq,insert_inj,h.last,Event.mk.injEq]
    simp only [true_and,and_true]
    exact eventWord_ne_next last.eventId last.group last.phase
  cases form with
  | fixed time => exact hnext time
  | ranged time random =>
    show scheduleNextEvent (urand random time time) ⟨last.next,number⟩ m=_ ↔ _
    rw [urand_same]
    exact hnext time
  | fixedMs time => exact ⟨hrepeat (UInt32.ofInt time),False.elim⟩
  | rangedMs time random =>
    show repeatEvent (urand random (UInt32.ofInt time) (UInt32.ofInt time)) ⟨last.next,number⟩ m=_
      ↔ _
    rw [urand_same]
    exact ⟨hrepeat (UInt32.ofInt time),False.elim⟩

/-- On every map whose events are labelled with what they were scheduled with, a call does what
it is for exactly in these cases: no event of group 16 is cancelled or delayed, no due event of
phase 16 is met outside of that phase, and the next event is scheduled in a form for numbers of
milliseconds after an id that is not the last one. -/
theorem event_map_agrees_iff (m : EventMap Token) (last : Args) (h : Labelled m last)
    (call : Call) : Agrees m last call ↔ Holds m last call := by
  cases call with
  | cancelGroup group => exact agrees_cancelGroup_iff h
  | delayGroup delay group => exact agrees_delayGroup_iff h
  | execute => exact agrees_execute_iff h
  | scheduleNext form number => exact agrees_scheduleNext_iff h

/-- A map with one event, scheduled at once by `ScheduleEvent`. -/
def oneEvent (phase : UInt16) (args : Args) : EventMap Token :=
  scheduleEvent args.eventId 0 args.group args.phase ⟨args,0⟩ ⟨0,phase,args.word,[]⟩

theorem labelled_oneEvent (phase : UInt16) (args : Args) : Labelled (oneEvent phase args) args where
  words e he := by
    obtain rfl := List.mem_singleton.mp he
    rfl
  nodup := List.nodup_singleton _
  ordered := List.pairwise_singleton ..
  last := rfl

/-- Cancelling the group 3. -/
theorem event_map_agrees_sample : Agrees (oneEvent 1 ⟨5,3,1⟩) ⟨5,3,1⟩ (.cancelGroup 3) :=
  (event_map_agrees_iff _ _ (labelled_oneEvent 1 ⟨5,3,1⟩) (.cancelGroup 3)).mpr
    fun h => absurd h (by decide)

/-- An event of group 16 is not cancelled with its group, an event of phase 16 is executed in
phase 1, and a duration schedules the last event once more. -/
theorem event_map_disagrees :
    (cancelEventGroup 16 (oneEvent 0 ⟨5,16,0⟩)).eventMap.length=1 ∧
    ((executeEvent (oneEvent 1 ⟨5,0,16⟩)).1.isSome=true ∧
      isInPhase 16 (oneEvent 1 ⟨5,0,16⟩)=false) ∧
    ((scheduleNextEventMs 7 ⟨⟨6,3,1⟩,1⟩ (oneEvent 1 ⟨5,3,1⟩)).eventMap.map eventId=[5,5] ∧
      (scheduleNextEvent 7 ⟨⟨6,3,1⟩,1⟩ (oneEvent 1 ⟨5,3,1⟩)).eventMap.map eventId=[5,6]) := by
  decide

end Projectnelth.EventMapGroups
