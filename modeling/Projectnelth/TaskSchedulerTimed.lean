import Mathlib
import Projectnelth.TaskSchedulerModel

/-!
# The timed loop of Dispatch

The second loop of `Dispatch` takes the earliest task out of the holder,
invokes it and asks the validator, until nothing is due. A handler is any
choice of context operations, made from everything that happened before. The
loop keeps the account of all tasks and takes them in order of due time; it
terminates when everything a handler schedules lies ahead.
-/

namespace Projectnelth.TaskSchedulerTimed

open StableMultimap TaskSchedulerModel

/-- One invocation of a task. -/
structure Execution where
  id : ℕ
  /-- Its due time when it was taken out. -/
  due : ℤ
  /-- The time of the scheduler. -/
  now : ℤ
  /-- The due times of the tasks left in the holder. -/
  queued : List ℤ

/-- The scheduler with the history of its tasks. -/
structure Trace where
  sched : Scheduler
  /-- The task of every insertion, whether scheduled or repeated. -/
  scheduled : List ℕ
  /-- The invocations, the oldest first. -/
  executed : List Execution
  /-- The tasks that a cancel operation took out of the holder. -/
  cancelled : List ℕ

/-- The queued tasks that a shared operation names for cancellation. -/
def cancels (s : Scheduler) : SharedOp → List ℕ
  | .cancelAll => s.holder
  | .cancelGroup group => s.holder.filter fun id => (s.task id).group == group
  | .cancelGroupsOf groups => s.holder.filter fun id => decide ((s.task id).group∈groups)
  | _ => []

/-- The task that a context operation inserts. -/
def inserts (id : ℕ) (s : Scheduler) : ContextOp → List ℕ
  | .repeatTask _ => [id]
  | .schedule _ _ => [s.made]
  | _ => []

/-- The tasks that a context operation cancels. -/
def contextCancels (s : Scheduler) : ContextOp → List ℕ
  | .shared op => cancels s op
  | _ => []

/-- The operations of one handler, recorded; `false` when an assertion failed. -/
def runContext (id : ℕ) : Bool → Trace → List ContextOp → Bool×Trace
  | _,t,[] => (true,t)
  | consumed,t,op::ops =>
    match contextOp id consumed t.sched op with
    | none => (false,t)
    | some (consumed,sched) =>
      runContext id consumed ⟨sched,t.scheduled++inserts id t.sched op,t.executed,
        t.cancelled++contextCancels t.sched op⟩ ops

/-- The trace after the earliest task was taken out of the holder. -/
def take (id : ℕ) (rest : List ℕ) (t : Trace) : Trace :=
  {t with
    sched := {t.sched with holder := rest}
    executed := t.executed++[⟨id,due t.sched.task id,t.sched.now,rest.map (due t.sched.task)⟩]}

/-- How a dispatch ends. -/
inductive Outcome where
  /-- Nothing is due any more, and the callback is called. -/
  | finished
  /-- The validator refused. -/
  | refused
  /-- A context was used for two repeats. -/
  | asserted
  deriving DecidableEq

/-- The second loop of `Dispatch`; the handlers and the validator may depend on
the number of invocations so far and on all of the history. -/
def timedLoop (handler : ℕ → Trace → ℕ → List ContextOp) (valid : ℕ → Trace → Bool) :
    ℕ → ℕ → Trace → Option (Outcome×Trace)
  | 0,_,_ => none
  | fuel+1,n,t =>
    match t.sched.holder with
    | [] => some (.finished,t)
    | id::rest =>
      if t.sched.now < due t.sched.task id then some (.finished,t)
      else
        let result := runContext id false (take id rest t) (handler n t id)
        if !result.1 then some (.asserted,result.2)
        else if !valid n result.2 then some (.refused,result.2)
        else timedLoop handler valid fuel (n+1) result.2

/-- Every insertion of a task is executed, queued or cancelled, once. -/
def Accounted (t : Trace) : Prop :=
  t.scheduled.Perm (t.executed.map Execution.id++t.sched.holder++t.cancelled)

/-- A task is invoked when it is due and before every task that is queued. -/
def InOrder (e : Execution) : Prop := e.due ≤ e.now ∧ ∀ q∈e.queued, e.due ≤ q

/-- What the loop keeps. -/
structure Sound (t : Trace) : Prop where
  /-- The holder is a sorted multiset. -/
  wellFormed : WellFormed t.sched
  /-- No task is lost or run twice for one insertion. -/
  accounted : Accounted t
  /-- Every invocation was the earliest one and due. -/
  inOrder : ∀ e∈t.executed, InOrder e

/-- The context of a task: it exists, and it is queued only if it was consumed. -/
def Holds (id : ℕ) (consumed : Bool) (s : Scheduler) : Prop :=
  id < s.made ∧ (consumed=false → id∉s.holder)

/-- Cancelled and kept tasks make up the holder. -/
theorem shared_perm {s : Scheduler} (hs : WellFormed s) (op : SharedOp) :
    ((shared op s).holder++cancels s op).Perm s.holder := by
  have hmodify : ∀ filter, ((modifyIf filter s).holder++[]).Perm s.holder := by
    intro filter
    rw [List.append_nil]
    exact modifyIf_perm filter hs.nodup
  have hsplit : ∀ p : ℕ → Bool, (s.holder.filter (fun i => !p i)++s.holder.filter p).Perm s.holder :=
    fun p => List.perm_append_comm.trans (List.filter_append_perm p s.holder)
  cases op with
  | async => exact (List.append_nil _).symm ▸ List.Perm.refl _
  | cancelAll => exact List.Perm.refl _
  | cancelGroup group => exact hsplit fun id => (s.task id).group == group
  | cancelGroupsOf groups =>
    rw [shared,cancelGroupsOf_eq]
    exact hsplit fun id => decide ((s.task id).group∈groups)
  | delayAll duration => exact hmodify _
  | delayGroup group duration => exact hmodify _
  | rescheduleAll duration => exact hmodify _
  | rescheduleGroup group duration => exact hmodify _

/-- The shared operations make no task and leave the clock alone. -/
theorem shared_same (s : Scheduler) (op : SharedOp) :
    (shared op s).made=s.made ∧ (shared op s).now=s.now := by
  cases op with
  | cancelGroupsOf groups =>
    rw [shared,cancelGroupsOf_eq]
    exact ⟨rfl,rfl⟩
  | _ => exact ⟨rfl,rfl⟩

/-- One context operation keeps the holder and the account of one insertion
for each execution or cancellation. -/
theorem contextOp_keeps {id : ℕ} {consumed consumed' : Bool} {s s' : Scheduler} {op : ContextOp}
    (hs : WellFormed s) (hid : Holds id consumed s)
    (h : contextOp id consumed s op=some (consumed',s')) :
    WellFormed s' ∧ Holds id consumed' s' ∧ s'.now=s.now ∧
      (s'.holder++contextCancels s op).Perm (s.holder++inserts id s op) := by
  cases op with
  | repeatTask duration =>
    cases consumed with
    | true => cases h
    | false =>
      cases h
      have hout := hid.2 rfl
      refine ⟨hs.repeatTask hout hid.1 duration,⟨hid.1,fun h => by cases h⟩,rfl,?_⟩
      have hperm := insert_perm (due (repeatTask id duration s).task) id s.holder
      simp only [contextCancels,inserts,List.append_nil]
      exact hperm.trans (List.perm_append_singleton id s.holder).symm
  | schedule time group =>
    cases h
    refine ⟨hs.scheduleAt _ time group,⟨Nat.lt_succ_of_lt hid.1,fun hc hmem => ?_⟩,rfl,?_⟩
    · rcases mem_insert.mp hmem with h | h
      · exact absurd (h ▸ hid.1) (Nat.lt_irrefl _)
      · exact hid.2 hc h
    · have hperm := insert_perm (due (scheduleAt (s.task id).end_ time group s).task) s.made s.holder
      simp only [contextCancels,inserts,List.append_nil]
      exact hperm.trans (List.perm_append_singleton s.made s.holder).symm
  | setGroup group =>
    cases h
    exact ⟨hs.setGroup id group,hid,rfl,List.Perm.refl _⟩
  | shared op =>
    cases h
    have hperm := shared_perm hs op
    obtain ⟨hmade,hnow⟩ := shared_same s op
    refine ⟨hs.shared op,⟨hmade ▸ hid.1,fun hc hmem => ?_⟩,hnow,?_⟩
    · exact hid.2 hc (hperm.mem_iff.mp (List.mem_append_left _ hmem))
    · simp only [contextCancels,inserts,List.append_nil]
      exact hperm

/-- The operations of a handler keep holder, account and clock. -/
theorem runContext_sound {id : ℕ} {consumed : Bool} {t : Trace} (ops : List ContextOp)
    (hs : Sound t) (hid : Holds id consumed t.sched) :
    Sound (runContext id consumed t ops).2 ∧
      (runContext id consumed t ops).2.sched.now=t.sched.now := by
  induction ops generalizing consumed t with
  | nil => exact ⟨hs,rfl⟩
  | cons op ops ih =>
    unfold runContext
    cases h : contextOp id consumed t.sched op with
    | none => exact ⟨hs,rfl⟩
    | some result =>
      obtain ⟨consumed',s'⟩ := result
      obtain ⟨hwell,hid',hnow,hperm⟩ := contextOp_keeps hs.wellFormed hid h
      have hacc : Accounted ⟨s',t.scheduled++inserts id t.sched op,t.executed,
          t.cancelled++contextCancels t.sched op⟩ := by
        have hold := hs.accounted
        simp only [Accounted,List.perm_iff_count,List.count_append] at hold hperm ⊢
        intro i
        have h1 := hold i
        have h2 := hperm i
        omega
      have hnext := ih (t := ⟨s',t.scheduled++inserts id t.sched op,t.executed,
        t.cancelled++contextCancels t.sched op⟩) ⟨hwell,hacc,hs.inOrder⟩ hid'
      exact ⟨hnext.1,hnext.2.trans hnow⟩

theorem take_sound {id : ℕ} {rest : List ℕ} {t : Trace} (hs : Sound t)
    (hholder : t.sched.holder=id::rest) (hdue : due t.sched.task id ≤ t.sched.now) :
    Sound (take id rest t) ∧ Holds id false (take id rest t).sched := by
  obtain ⟨hsorted,hnodup,hmade⟩ := hs.wellFormed
  rw [hholder] at hsorted hnodup hmade
  obtain ⟨hfirst,hrest⟩ := List.pairwise_cons.mp hsorted
  obtain ⟨hout,hnodup⟩ := List.nodup_cons.mp hnodup
  refine ⟨⟨⟨hrest,hnodup,fun i hi => hmade i (List.mem_cons_of_mem id hi)⟩,?_,?_⟩,
    hmade id List.mem_cons_self,fun _ => hout⟩
  · have hacc := hs.accounted
    simp only [Accounted,hholder,List.perm_iff_count,List.count_append,List.count_cons,take,
      List.map_append,List.map_cons,List.map_nil,List.count_nil] at hacc ⊢
    intro i
    have h := hacc i
    omega
  · intro e he
    rcases List.mem_append.mp he with he | he
    · exact hs.inOrder e he
    rw [List.mem_singleton.mp he]
    refine ⟨hdue,fun q hq => ?_⟩
    obtain ⟨i,hi,rfl⟩ := List.mem_map.mp hq
    exact hfirst i hi

section Loop

variable {handler : ℕ → Trace → ℕ → List ContextOp} {valid : ℕ → Trace → Bool}

/-- However the loop ends, nothing was lost and everything ran in order; if the
validator did not refuse, nothing due is left. -/
theorem timedLoop_sound {fuel n : ℕ} {t t' : Trace} {outcome : Outcome} (hs : Sound t)
    (h : timedLoop handler valid fuel n t=some (outcome,t')) :
    Sound t' ∧ t'.sched.now=t.sched.now ∧
      (outcome=.finished → ∀ i∈t'.sched.holder, t'.sched.now < due t'.sched.task i) := by
  induction fuel generalizing n t with
  | zero => cases h
  | succ fuel ih =>
    unfold timedLoop at h
    split at h
    · rename_i hempty
      cases h
      exact ⟨hs,rfl,fun _ i hi => absurd (hempty ▸ hi) List.not_mem_nil⟩
    · rename_i id rest hholder
      split at h
      · rename_i hlater
        cases h
        refine ⟨hs,rfl,fun _ i hi => ?_⟩
        have hfirst := Ordered.head_le (hholder ▸ hs.wellFormed.sorted) i (hholder ▸ hi)
        exact hlater.trans_le hfirst
      · rename_i hdue
        obtain ⟨htake,hid⟩ := take_sound hs hholder (not_lt.mp hdue)
        obtain ⟨hrun,hnow⟩ := runContext_sound (handler n t id) htake hid
        dsimp only at h
        split at h
        · cases h
          exact ⟨hrun,hnow,fun h => by cases h⟩
        split at h
        · cases h
          exact ⟨hrun,hnow,fun h => by cases h⟩
        · obtain ⟨hs',hnow',hdone⟩ := ih hrun h
          exact ⟨hs',hnow'.trans hnow,hdone⟩

end Loop

/-- An operation that schedules, repeats or moves tasks only to where they are
not due at once: at least a tick ahead, and delays not backwards. -/
def Ahead : ContextOp → Prop
  | .repeatTask duration => 0 < duration
  | .schedule time _ => 0 < time
  | .shared (.delayAll duration) => 0 ≤ duration
  | .shared (.delayGroup _ duration) => 0 ≤ duration
  | .shared (.rescheduleAll duration) => 0 < duration
  | .shared (.rescheduleGroup _ duration) => 0 < duration
  | .setGroup _ | .shared _ => True

/-- No queued task is due before a time, and at most so many are due at it. -/
def Level (b : ℤ) (n : ℕ) (s : Scheduler) : Prop :=
  (∀ i∈s.holder, b ≤ due s.task i) ∧ s.holder.countP (fun i => decide (due s.task i=b)) ≤ n

theorem Level.insert {b : ℤ} {n id : ℕ} {s s' : Scheduler} (hl : Level b n s)
    (hid : id∉s.holder) (hperm : s'.holder.Perm (id::s.holder)) (hlate : b < due s'.task id)
    (hsame : ∀ i, i≠id → due s'.task i=due s.task i) : Level b n s' := by
  have hold : ∀ i∈s.holder, due s'.task i=due s.task i := fun i hi =>
    hsame i fun h => hid (h ▸ hi)
  refine ⟨fun i hi => ?_,?_⟩
  · rcases List.mem_cons.mp (hperm.mem_iff.mp hi) with rfl | hi
    · exact hlate.le
    · exact (hl.1 i hi).trans_eq (hold i hi).symm
  · have hnot : decide (due s'.task id=b)=false := decide_eq_false hlate.ne'
    rw [hperm.countP_eq,List.countP_cons_of_neg (by rw [hnot]; exact Bool.false_ne_true)]
    refine Nat.le_trans (List.countP_mono_left fun i hi h => ?_) hl.2
    rw [hold i hi] at h
    exact h

theorem Level.sublist {b : ℤ} {n : ℕ} {s s' : Scheduler} (hl : Level b n s)
    (hsub : s'.holder.Sublist s.holder) (hsame : due s'.task=due s.task) : Level b n s' := by
  refine ⟨fun i hi => hsame ▸ hl.1 i (hsub.subset hi),?_⟩
  rw [hsame]
  exact hsub.countP_le.trans hl.2

/-- A change of tasks that moves none to the time of the level or before it. -/
def Forward (b : ℤ) (filter : Task → Option Task) : Prop :=
  ∀ task changed, filter task=some changed → b ≤ task.end_ →
    b ≤ changed.end_ ∧ (changed.end_=b → task.end_=b)

theorem Forward.due {b : ℤ} {filter : Task → Option Task} {s : Scheduler} (hf : Forward b filter)
    (hn : s.holder.Nodup) {i : ℕ} (hi : b ≤ due s.task i) :
    b ≤ due (modifyIf filter s).task i ∧
      (due (modifyIf filter s).task i=b → due s.task i=b) := by
  simp only [TaskSchedulerModel.due,modifyIf_task filter hn]
  split
  · cases h : filter (s.task i) with
    | none => exact ⟨hi,id⟩
    | some changed => exact hf _ _ h hi
  · exact ⟨hi,id⟩

theorem Level.modifyIf {b : ℤ} {n : ℕ} {s : Scheduler} (hl : Level b n s) (hn : s.holder.Nodup)
    {filter : Task → Option Task} (hf : Forward b filter) : Level b n (modifyIf filter s) := by
  have hperm := modifyIf_perm filter hn
  refine ⟨fun i hi => (hf.due hn (hl.1 i (hperm.mem_iff.mp hi))).1,?_⟩
  rw [hperm.countP_eq]
  refine Nat.le_trans (List.countP_mono_left fun i hi h => ?_) hl.2
  exact decide_eq_true ((hf.due hn (hl.1 i hi)).2 (of_decide_eq_true h))

/-- The level under a shared operation, together with the due time of the
task whose handler runs. -/
theorem Level.shared {b : ℤ} {n id : ℕ} {s : Scheduler} {op : SharedOp} (hs : WellFormed s)
    (ha : Ahead (.shared op)) (hnow : b ≤ s.now) (hl : Level b n s) (hid : b ≤ due s.task id) :
    Level b n (shared op s) ∧ b ≤ due (shared op s).task id := by
  have hmodify : ∀ filter, Forward b filter →
      Level b n (TaskSchedulerModel.modifyIf filter s) ∧
        b ≤ due (TaskSchedulerModel.modifyIf filter s).task id :=
    fun filter hf => ⟨hl.modifyIf hs.nodup hf,(hf.due hs.nodup hid).1⟩
  cases op with
  | async => exact ⟨hl,hid⟩
  | cancelAll => exact ⟨hl.sublist (List.nil_sublist _) rfl,hid⟩
  | cancelGroup group => exact ⟨hl.sublist List.filter_sublist rfl,hid⟩
  | cancelGroupsOf groups =>
    rw [TaskSchedulerModel.shared,cancelGroupsOf_eq]
    exact ⟨hl.sublist List.filter_sublist rfl,hid⟩
  | delayAll duration =>
    refine hmodify _ fun task changed h hb => ?_
    cases h
    simp only [Ahead] at ha
    dsimp only
    omega
  | delayGroup group duration =>
    refine hmodify _ fun task changed h hb => ?_
    split at h
    · cases h
      simp only [Ahead] at ha
      dsimp only
      omega
    · cases h
  | rescheduleAll duration =>
    refine hmodify _ fun task changed h hb => ?_
    cases h
    simp only [Ahead] at ha
    dsimp only
    omega
  | rescheduleGroup group duration =>
    refine hmodify _ fun task changed h hb => ?_
    split at h
    · cases h
      simp only [Ahead] at ha
      dsimp only
      omega
    · cases h

theorem Level.contextOp {b : ℤ} {n id : ℕ} {consumed consumed' : Bool} {s s' : Scheduler}
    {op : ContextOp} (hs : WellFormed s) (hholds : Holds id consumed s) (ha : Ahead op)
    (hnow : b ≤ s.now) (hl : Level b n s) (hid : b ≤ due s.task id)
    (h : contextOp id consumed s op=some (consumed',s')) :
    Level b n s' ∧ b ≤ due s'.task id := by
  cases op with
  | repeatTask duration =>
    cases consumed with
    | true => cases h
    | false =>
      cases h
      simp only [Ahead] at ha
      have hdue : due (repeatTask id duration s).task id=due s.task id+duration := by
        simp only [due,repeatTask,push,Function.update_self]
      have hlate : b < due (repeatTask id duration s).task id := by omega
      refine ⟨hl.insert (hholds.2 rfl) (insert_perm _ id s.holder) hlate fun i hi => ?_,hlate.le⟩
      simp only [due,repeatTask,push,Function.update_of_ne hi]
  | schedule time group =>
    cases h
    simp only [Ahead] at ha
    have hnew : s.made∉s.holder := fun h => absurd (hs.made _ h) (Nat.lt_irrefl _)
    have hsame : ∀ i, i≠s.made →
        due (scheduleAt (s.task id).end_ time group s).task i=due s.task i := by
      intro i hi
      simp only [due,scheduleAt,push,Function.update_of_ne hi]
    have hdue : due (scheduleAt (s.task id).end_ time group s).task s.made=
        due s.task id+time := by
      simp only [due,scheduleAt,push,Function.update_self]
    refine ⟨hl.insert hnew (insert_perm _ s.made s.holder) (by omega) hsame,?_⟩
    rw [hsame id hholds.1.ne]
    exact hid
  | setGroup group =>
    cases h
    have hdue := due_setGroup id group s
    exact ⟨hl.sublist (List.Sublist.refl _) hdue,hdue ▸ hid⟩
  | shared op =>
    cases h
    exact hl.shared hs ha hnow hid

/-- The level under a whole handler. -/
theorem runContext_level {b : ℤ} {n id : ℕ} {consumed : Bool} {t : Trace} {ops : List ContextOp}
    (hs : WellFormed t.sched) (hholds : Holds id consumed t.sched) (ha : ∀ op∈ops, Ahead op)
    (hnow : b ≤ t.sched.now) (hl : Level b n t.sched) (hid : b ≤ due t.sched.task id) :
    Level b n (runContext id consumed t ops).2.sched := by
  induction ops generalizing consumed t with
  | nil => exact hl
  | cons op ops ih =>
    unfold runContext
    cases h : contextOp id consumed t.sched op with
    | none => exact hl
    | some result =>
      obtain ⟨consumed',s'⟩ := result
      obtain ⟨hs',hholds',hnow',-⟩ := contextOp_keeps hs hholds h
      obtain ⟨hl',hid'⟩ := hl.contextOp hs hholds (ha op List.mem_cons_self) hnow hid h
      exact ih (t := ⟨s',_,_,_⟩) hs' hholds' (fun op hop => ha op (List.mem_cons_of_mem _ hop))
        (hnow'.symm ▸ hnow) hl' hid'

section Termination

variable {handler : ℕ → Trace → ℕ → List ContextOp} {valid : ℕ → Trace → Bool}

theorem timedLoop_pass {n id : ℕ} {rest : List ℕ} {t : Trace} (hholder : t.sched.holder=id::rest)
    (hdue : due t.sched.task id ≤ t.sched.now)
    (hnext : ∃ fuel, (timedLoop handler valid fuel (n+1)
      (runContext id false (take id rest t) (handler n t id)).2).isSome) :
    ∃ fuel, (timedLoop handler valid fuel n t).isSome := by
  obtain ⟨fuel,hfuel⟩ := hnext
  refine ⟨fuel+1,?_⟩
  simp only [timedLoop,hholder,if_neg (not_lt.mpr hdue)]
  split
  · rfl
  · split
    · rfl
    · exact hfuel

/-- The loop ends at once when nothing is due. -/
theorem timedLoop_idle {n : ℕ} {t : Trace} (h : ∀ i∈t.sched.holder, t.sched.now < due t.sched.task i) :
    ∃ fuel, (timedLoop handler valid fuel n t).isSome := by
  refine ⟨1,?_⟩
  unfold timedLoop
  split
  · rfl
  · rename_i id rest hholder
    rw [if_pos (h id (hholder ▸ List.mem_cons_self))]
    rfl

/-- If the loop terminates once everything is due after some time, it does so
with any number of tasks due at that time: each pass runs one of them, and what
its handler queues is due later. -/
theorem timedLoop_level (hahead : ∀ n t id, ∀ op∈handler n t id, Ahead op) {b now : ℤ}
    (hb : b ≤ now) (hlater : ∀ n t, Sound t → t.sched.now=now → (∀ i∈t.sched.holder, b < due t.sched.task i) →
      ∃ fuel, (timedLoop handler valid fuel n t).isSome) (m : ℕ) :
    ∀ n t, Sound t → t.sched.now=now → Level b m t.sched →
      ∃ fuel, (timedLoop handler valid fuel n t).isSome := by
  induction m with
  | zero =>
    intro n t hs hnow hl
    refine hlater n t hs hnow fun i hi => lt_of_le_of_ne (hl.1 i hi) fun h => ?_
    have hnone := List.countP_eq_zero.mp (Nat.le_zero.mp hl.2) i hi
    exact hnone (decide_eq_true h.symm)
  | succ m ih =>
    intro n t hs hnow hl
    cases hholder : t.sched.holder with
    | nil => exact timedLoop_idle fun i hi => absurd (hholder ▸ hi) List.not_mem_nil
    | cons id rest =>
      have hfirst : ∀ i∈t.sched.holder, due t.sched.task id ≤ due t.sched.task i := fun i hi =>
        Ordered.head_le (hholder ▸ hs.wellFormed.sorted) i (hholder ▸ hi)
      have hmem : id∈t.sched.holder := hholder ▸ List.mem_cons_self
      by_cases hat : due t.sched.task id=b
      · obtain ⟨htake,hholds⟩ := take_sound hs hholder (hat.trans_le (hb.trans_eq hnow.symm))
        obtain ⟨hrun,hnow'⟩ := runContext_sound (handler n t id) htake hholds
        have hcount := hl.2
        rw [hholder,List.countP_cons_of_pos (p := fun i => decide (due t.sched.task i=b))
          (decide_eq_true hat)] at hcount
        have hrest : Level b m (take id rest t).sched :=
          ⟨fun i hi => hl.1 i (hholder ▸ List.mem_cons_of_mem id hi),Nat.le_of_succ_le_succ hcount⟩
        have hlevel := runContext_level htake.wellFormed hholds (hahead n t id)
          (hb.trans_eq hnow.symm) hrest hat.ge
        exact timedLoop_pass hholder (hat.trans_le (hb.trans_eq hnow.symm))
          (ih (n+1) _ hrun (hnow'.trans hnow) hlevel)
      · have hlt : b < due t.sched.task id := lt_of_le_of_ne (hl.1 id hmem) (Ne.symm hat)
        exact hlater n t hs hnow fun i hi => hlt.trans_le (hfirst i hi)

/-- The loop terminates wherever the earliest due time lies. -/
theorem timedLoop_terminates (hahead : ∀ n t id, ∀ op∈handler n t id, Ahead op) (k : ℕ) :
    ∀ n t, Sound t → (∀ i∈t.sched.holder, t.sched.now-k ≤ due t.sched.task i) →
      ∃ fuel, (timedLoop handler valid fuel n t).isSome := by
  induction k with
  | zero =>
    intro n t hs hfrom
    refine timedLoop_level hahead (b := t.sched.now-0) (by omega) (fun n' t' hs' hnow' hlater => ?_) _ n t hs
      rfl ⟨hfrom,le_rfl⟩
    exact timedLoop_idle fun i hi => by have h := hlater i hi; omega
  | succ k ih =>
    intro n t hs hfrom
    refine timedLoop_level hahead (b := t.sched.now-(k+1 : ℕ)) (by omega) (fun n' t' hs' hnow' hlater => ?_) _ n t
      hs rfl ⟨hfrom,le_rfl⟩
    exact ih n' t' hs' fun i hi => by have h := hlater i hi; omega

end Termination

/-- Some tick bounds the due times from below. -/
theorem exists_lag (now : ℤ) (task : ℕ → Task) (ids : List ℕ) :
    ∃ k : ℕ, ∀ i∈ids, now-k ≤ due task i := by
  induction ids with
  | nil => exact ⟨0,fun i hi => absurd hi List.not_mem_nil⟩
  | cons id ids ih =>
    obtain ⟨k,hk⟩ := ih
    refine ⟨k+(now-due task id).toNat,fun i hi => ?_⟩
    rcases List.mem_cons.mp hi with rfl | hi
    · omega
    · have h := hk i hi
      omega

/-- The trace of a scheduler whose tasks have all been scheduled before. -/
def start (s : Scheduler) : Trace := ⟨s,s.holder,[],[]⟩

theorem start_sound {s : Scheduler} (hs : WellFormed s) : Sound (start s) where
  wellFormed := hs
  accounted := by
    simp only [Accounted,start,List.map_nil,List.nil_append,List.append_nil]
    exact List.Perm.refl _
  inOrder e he := absurd he List.not_mem_nil

/-- From every well-formed scheduler, whatever handlers and validator do: the
tasks run when they are due and by due time, each insertion is executed, queued
or cancelled once, the holder stays a sorted multiset, and after an unrefused
dispatch nothing due is left. If handlers put tasks ahead only, the loop ends. -/
theorem timed_dispatch (s : Scheduler) (hs : WellFormed s)
    (handler : ℕ → Trace → ℕ → List ContextOp) (valid : ℕ → Trace → Bool) :
    (∀ fuel outcome t, timedLoop handler valid fuel 0 (start s)=some (outcome,t) →
      WellFormed t.sched ∧ Accounted t ∧ (∀ e∈t.executed, InOrder e) ∧
      (outcome=.finished → ∀ i∈t.sched.holder, t.sched.now < due t.sched.task i)) ∧
    ((∀ n t id, ∀ op∈handler n t id, Ahead op) →
      ∃ fuel, (timedLoop handler valid fuel 0 (start s)).isSome) := by
  refine ⟨fun fuel outcome t h => ?_,fun hahead => ?_⟩
  · obtain ⟨hsound,-,hdone⟩ := timedLoop_sound (start_sound hs) h
    exact ⟨hsound.wellFormed,hsound.accounted,hsound.inOrder,hdone⟩
  · obtain ⟨k,hk⟩ := exists_lag s.now s.task s.holder
    exact timedLoop_terminates hahead k 0 (start s) (start_sound hs) hk

/-- A scheduler with one task, due now. -/
def single : Scheduler := ⟨0,fun _ => ⟨0,1,0,0⟩,1,[0],[],0⟩

theorem single_wellFormed : WellFormed single :=
  ⟨List.pairwise_singleton _ _,List.pairwise_singleton _ _,fun i hi => by
    rw [List.mem_singleton.mp hi]
    exact Nat.zero_lt_one⟩

/-- A handler that repeats its task a tick later. -/
def repeating : ℕ → Trace → ℕ → List ContextOp := fun _ _ _ => [.repeatTask 1]

/-- The dispatch of one repeating task ends. -/
theorem timed_dispatch_repeating :
    ∃ fuel, (timedLoop repeating (fun _ _ => true) fuel 0 (start single)).isSome := by
  refine (timed_dispatch single single_wellFormed repeating fun _ _ => true).2 ?_
  intro n t id op hop
  rw [List.mem_singleton.mp hop]
  exact Int.one_pos

/-- A handler that schedules another task without delay. -/
def endless : ℕ → Trace → ℕ → List ContextOp := fun _ _ _ => [.schedule 0 0]

/-- A single due task under that handler is replaced by a single due task. -/
theorem endless_none {fuel n : ℕ} (id : ℕ) {t : Trace} (hholder : t.sched.holder=[id])
    (hdue : due t.sched.task id=t.sched.now) :
    timedLoop endless (fun _ _ => true) fuel n t=none := by
  induction fuel generalizing n id t with
  | zero => rfl
  | succ fuel ih =>
    simp only [timedLoop,hholder,hdue,lt_irrefl,if_false]
    refine ih t.sched.made rfl ?_
    simp only [due,endless,runContext,contextOp,take,scheduleAt,push,Function.update_self,Int.add_zero]
    exact hdue

/-- Handlers that repeat only with a delay still keep a dispatch going for
ever, when they schedule tasks through their context without one. -/
theorem schedule_without_delay :
    ¬∀ s handler valid, WellFormed s →
      (∀ n t id duration, .repeatTask duration∈handler n t id → 1 ≤ duration) →
      ∃ fuel, (timedLoop handler valid fuel 0 (start s)).isSome := by
  intro h
  obtain ⟨fuel,hfuel⟩ := h single endless (fun _ _ => true) single_wellFormed
    (fun n t id duration hop => by cases List.mem_singleton.mp hop)
  rw [endless_none 0 (t := start single) rfl rfl] at hfuel
  cases hfuel

end Projectnelth.TaskSchedulerTimed
