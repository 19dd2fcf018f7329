import Mathlib
import Projectnelth.TaskSchedulerModel
import Projectnelth.RunInvariant

/-!
# The asynchronous queue under Dispatch

`Dispatch` runs callables, handlers and a callback which may use the scheduler
again, another `Update` included. The machine keeps the stack of dispatches in
progress, and every step of the code in control is an action, so that a run is
any behaviour of any family of callables. The front callable stays in the queue
while it runs; the queue is accounted for as long as that callable neither
empties the queue nor starts another dispatch.
-/

namespace Projectnelth.TaskSchedulerAsync

open StableMultimap TaskSchedulerModel RunInvariant

/-- Where a dispatch in progress stands. -/
inductive Frame where
  /-- Before the first question to the validator. -/
  | entry
  /-- At the head of the asynchronous loop. -/
  | asyncs
  /-- Inside the front callable. -/
  | running (id : ℕ)
  /-- After `pop`, before the question to the validator. -/
  | asyncCheck
  /-- At the head of the timed loop. -/
  | tasks
  /-- Inside the handler of a task, with the consumed flag of its context. -/
  | task (id : ℕ) (consumed : Bool)
  /-- After a handler, before the question to the validator. -/
  | taskCheck
  /-- Inside the final callback. -/
  | callback
  deriving DecidableEq

/-- Scheduler, dispatches in progress and the history of the callables. -/
structure Machine where
  sched : Scheduler
  /-- The dispatches in progress, the innermost first. -/
  stack : List Frame
  /-- The callables in the order in which they were called. -/
  ran : List ℕ
  /-- The callables that were waiting when `CancelAll` was called. -/
  cancelled : List ℕ
  /-- Whether an empty queue was popped. -/
  fault : Bool

/-- What code in control can call. A validator is any answer of the environment,
so that setting one is no operation here. -/
inductive Op where
  | shared (op : SharedOp)
  | schedule (time : ℤ) (group : UInt32)
  | context (op : ContextOp)
  | update (difftime : ℤ)
  | updateTo (now : ℤ)

/-- One step of the environment or of `Dispatch`. -/
inductive Action where
  /-- The code in control calls an operation. -/
  | op (op : Op)
  /-- The callable, handler or callback in control returns. -/
  | return
  /-- The validator answers. -/
  | validator (ok : Bool)
  /-- The loop in control looks at its queue. -/
  | next

/-- A callable of the asynchronous loop is on the way in a frame. -/
def isRunning : Frame → Bool
  | .running _ => true
  | _ => false

/-- The queued callables that were not called yet: a running one is still queued. -/
def waiting (m : Machine) : List ℕ := m.sched.asyncHolder.drop (m.stack.countP isRunning)

/-- Whether the top of the stack is code that can call operations. -/
def inControl : List Frame → Bool
  | [] | .running _::_ | .task _ _::_ | .callback::_ => true
  | _ => false

/-- An operation of the code in control. -/
def call (m : Machine) : Op → Machine
  | .shared .cancelAll =>
    {m with sched := cancelAll m.sched,cancelled := m.cancelled++waiting m}
  | .shared op => {m with sched := shared op m.sched}
  | .schedule time group => {m with sched := scheduleAt m.sched.now time group m.sched}
  | .context op =>
    match m.stack with
    | .task id consumed::rest =>
      match contextOp id consumed m.sched op with
      | none => m
      | some (consumed,sched) =>
        {m with
          sched := sched
          stack := .task id consumed::rest
          cancelled := m.cancelled++if op=.shared .cancelAll then waiting m else []}
    | _ => m
  | .update difftime =>
    {m with sched := {m.sched with now := m.sched.now+difftime},stack := .entry::m.stack}
  | .updateTo now => {m with sched := {m.sched with now := now},stack := .entry::m.stack}

/-- One step. -/
def step (m : Machine) : Action → Machine
  | .op op => if inControl m.stack then call m op else m
  | .return =>
    match m.stack with
    | .running _::rest =>
      match m.sched.asyncHolder with
      | [] => {m with stack := .asyncCheck::rest,fault := true}
      | _::queue =>
        {m with sched := {m.sched with asyncHolder := queue},stack := .asyncCheck::rest}
    | .task _ _::rest => {m with stack := .taskCheck::rest}
    | .callback::rest => {m with stack := rest}
    | _ => m
  | .validator ok =>
    match m.stack with
    | .entry::rest | .asyncCheck::rest =>
      {m with stack := if ok then .asyncs::rest else rest}
    | .taskCheck::rest => {m with stack := if ok then .tasks::rest else rest}
    | _ => m
  | .next =>
    match m.stack with
    | .asyncs::rest =>
      match m.sched.asyncHolder with
      | [] => {m with stack := .tasks::rest}
      | id::_ => {m with stack := .running id::rest,ran := m.ran++[id]}
    | .tasks::rest =>
      match m.sched.holder with
      | [] => {m with stack := .callback::rest}
      | id::holder =>
        if m.sched.now < due m.sched.task id then {m with stack := .callback::rest}
        else {m with sched := {m.sched with holder := holder},stack := .task id false::rest}
    | _ => m

/-- The called and the waiting callables stand in the order of their queueing,
and every callable ever queued is called, waiting or cancelled, once. -/
def Account (ran waiting cancelled : List ℕ) (asyncs : ℕ) : Prop :=
  (ran++waiting).Pairwise (· < ·) ∧ (ran++waiting++cancelled).Perm (List.range asyncs)

/-- No empty queue was popped, and the account of the callables is right. -/
def Fair (m : Machine) : Prop :=
  m.fault=false ∧ Account m.ran (waiting m) m.cancelled m.sched.asyncs

/-- A callable of the asynchronous loop does not empty the queue, and the
validator passes no dispatch that such a callable has started. -/
def SafeStep (m : Machine) : Action → Prop
  | .op (.shared .cancelAll) => ∀ id rest, m.stack≠.running id::rest
  | .validator true => ∀ rest, m.stack=.entry::rest → ∀ f∈rest, isRunning f=false
  | _ => True

/-- No callable of the asynchronous loop is running. -/
def Idle (stack : List Frame) : Prop := ∀ f∈stack, isRunning f=false

/-- One callable of the asynchronous loop is running, or has just called `Update`,
and it is the front of the queue. -/
def Busy (m : Machine) (rest : List Frame) (queue : List ℕ) : Prop :=
  ∃ id, (m.stack=.running id::rest ∨ m.stack=.entry::.running id::rest) ∧ Idle rest ∧
    m.sched.asyncHolder=id::queue

/-- What every safe step keeps: the whole queue waits, or all but the front. -/
def Sound (m : Machine) : Prop :=
  m.fault=false ∧
    ((Idle m.stack ∧ Account m.ran m.sched.asyncHolder m.cancelled m.sched.asyncs) ∨
    ∃ rest queue, Busy m rest queue ∧ Account m.ran queue m.cancelled m.sched.asyncs)

theorem Idle.countP {stack : List Frame} (h : Idle stack) : stack.countP isRunning=0 :=
  List.countP_eq_zero.mpr fun f hf => by rw [h f hf]; exact Bool.false_ne_true

/-- Without a running callable the whole queue waits. -/
theorem waiting_idle {m : Machine} (h : Idle m.stack) : waiting m=m.sched.asyncHolder := by
  rw [waiting,h.countP,List.drop_zero]

/-- A running callable is not waiting. -/
theorem waiting_busy {m : Machine} {rest : List Frame} {queue : List ℕ} (h : Busy m rest queue) :
    waiting m=queue := by
  obtain ⟨id,hstack,hidle,hqueue⟩ := h
  have hone : m.stack.countP isRunning=1 := by
    rcases hstack with h | h
    · rw [h,List.countP_cons_of_pos rfl,hidle.countP]
    · rw [h,List.countP_cons_of_neg Bool.false_ne_true,List.countP_cons_of_pos rfl,hidle.countP]
  rw [waiting,hone,hqueue,List.drop_succ_cons,List.drop_zero]

/-- The account after one more callable was queued. -/
theorem Account.push {ran waiting cancelled : List ℕ} {asyncs : ℕ}
    (h : Account ran waiting cancelled asyncs) :
    Account ran (waiting++[asyncs]) cancelled (asyncs+1) := by
  obtain ⟨hord,hperm⟩ := h
  have hlt : ∀ i∈ran++waiting, i < asyncs := fun i hi =>
    List.mem_range.mp (hperm.mem_iff.mp (List.mem_append_left _ hi))
  refine ⟨?_,?_⟩
  · rw [←List.append_assoc]
    refine List.pairwise_append.mpr ⟨hord,List.pairwise_singleton _ _,fun i hi j hj => ?_⟩
    rw [List.mem_singleton.mp hj]
    exact hlt i hi
  · rw [List.range_succ]
    simp only [List.perm_iff_count,List.count_append] at hperm ⊢
    intro i
    have h := hperm i
    omega

theorem Account.cancel {ran waiting cancelled : List ℕ} {asyncs : ℕ}
    (h : Account ran waiting cancelled asyncs) : Account ran [] (cancelled++waiting) asyncs := by
  obtain ⟨hord,hperm⟩ := h
  refine ⟨?_,?_⟩
  · rw [List.append_nil]
    exact hord.sublist (List.sublist_append_left ran waiting)
  simp only [List.perm_iff_count,List.count_append,List.count_nil] at hperm ⊢
  intro i
  have h := hperm i
  omega

theorem Account.call {ran waiting cancelled : List ℕ} {asyncs id : ℕ}
    (h : Account ran (id::waiting) cancelled asyncs) :
    Account (ran++[id]) waiting cancelled asyncs := by
  simp only [Account,List.append_assoc,List.singleton_append] at h ⊢
  exact h

/-- What an operation does to the queue, unless it cancels everything: nothing,
or it queues one callable. -/
def Queues (s s' : Scheduler) : Prop :=
  (s'.asyncHolder=s.asyncHolder ∧ s'.asyncs=s.asyncs) ∨
  s'.asyncHolder=s.asyncHolder++[s.asyncs] ∧ s'.asyncs=s.asyncs+1

theorem shared_queues {op : SharedOp} (h : op≠.cancelAll) (s : Scheduler) :
    Queues s (shared op s) := by
  cases op with
  | async => exact Or.inr ⟨rfl,rfl⟩
  | cancelAll => exact absurd rfl h
  | cancelGroupsOf groups =>
    rw [shared,cancelGroupsOf_eq]
    exact Or.inl ⟨rfl,rfl⟩
  | _ => exact Or.inl ⟨rfl,rfl⟩

theorem contextOp_queues {op : ContextOp} (h : op≠.shared .cancelAll) {s s' : Scheduler} {id : ℕ}
    {consumed consumed' : Bool} (hop : contextOp id consumed s op=some (consumed',s')) :
    Queues s s' := by
  cases op with
  | repeatTask duration =>
    cases consumed with
    | true => cases hop
    | false => cases hop; exact Or.inl ⟨rfl,rfl⟩
  | schedule time group => cases hop; exact Or.inl ⟨rfl,rfl⟩
  | setGroup group => cases hop; exact Or.inl ⟨rfl,rfl⟩
  | shared op =>
    cases hop
    exact shared_queues (fun heq => h (congrArg ContextOp.shared heq)) s

theorem Sound.fair {m : Machine} (hs : Sound m) : Fair m := by
  obtain ⟨hfault,⟨hidle,hacc⟩ | ⟨rest,queue,hbusy,hacc⟩⟩ := hs
  · exact ⟨hfault,(waiting_idle hidle).symm ▸ hacc⟩
  · exact ⟨hfault,(waiting_busy hbusy).symm ▸ hacc⟩

/-- The machine after an operation that queues at most one callable. -/
theorem Sound.queues {m : Machine} {sched : Scheduler} (hs : Sound m)
    (hq : Queues m.sched sched) : Sound {m with sched := sched} := by
  obtain ⟨hfault,⟨hidle,hacc⟩ | ⟨rest,queue,⟨id,hstack,hidle,hqueue⟩,hacc⟩⟩ := hs
  · refine ⟨hfault,Or.inl ⟨hidle,?_⟩⟩
    rcases hq with ⟨hholder,hasyncs⟩ | ⟨hholder,hasyncs⟩
    · dsimp only
      rw [hholder,hasyncs]
      exact hacc
    · dsimp only
      rw [hholder,hasyncs]
      exact hacc.push
  · rcases hq with ⟨hholder,hasyncs⟩ | ⟨hholder,hasyncs⟩
    · refine ⟨hfault,Or.inr ⟨rest,queue,⟨id,hstack,hidle,hholder.trans hqueue⟩,?_⟩⟩
      dsimp only
      rw [hasyncs]
      exact hacc
    · refine ⟨hfault,Or.inr ⟨rest,queue++[m.sched.asyncs],⟨id,hstack,hidle,?_⟩,?_⟩⟩
      · dsimp only
        rw [hholder,hqueue,List.cons_append]
      · dsimp only
        rw [hasyncs]
        exact hacc.push

/-- While no callable runs, everything may be cancelled. -/
theorem Sound.cancelAll {m : Machine} (hs : Sound m) (hidle : Idle m.stack) :
    Sound {m with sched := cancelAll m.sched,cancelled := m.cancelled++waiting m} := by
  obtain ⟨hfault,⟨-,hacc⟩ | ⟨rest,queue,⟨id,hstack,-,-⟩,-⟩⟩ := hs
  · refine ⟨hfault,Or.inl ⟨hidle,?_⟩⟩
    dsimp only
    rw [waiting_idle hidle]
    exact hacc.cancel
  · have hmem : .running id∈m.stack := by
      rcases hstack with h | h <;> rw [h]
      · exact List.mem_cons_self
      · exact List.mem_cons_of_mem _ List.mem_cons_self
    cases hidle _ hmem

/-- Without a running callable the frames may change among others. -/
theorem Sound.frames {m : Machine} {stack : List Frame} (hs : Sound m) (hidle : Idle m.stack)
    (hnext : Idle stack) : Sound {m with stack := stack} := by
  have hfair := hs.fair
  refine ⟨hfair.1,Or.inl ⟨hnext,?_⟩⟩
  have hacc := hfair.2
  rw [waiting_idle hidle] at hacc
  exact hacc

theorem Idle.cons {f : Frame} {stack : List Frame} (hf : isRunning f=false) (h : Idle stack) :
    Idle (f::stack) := by
  intro g hg
  rcases List.mem_cons.mp hg with rfl | hg
  · exact hf
  · exact h g hg

theorem Idle.tail {f : Frame} {stack : List Frame} (h : Idle (f::stack)) : Idle stack :=
  fun g hg => h g (List.mem_cons_of_mem f hg)

/-- Code in control is idle or the front callable itself. -/
theorem Sound.control {m : Machine} (hs : Sound m) (hc : inControl m.stack=true) :
    Idle m.stack ∨ ∃ id rest, m.stack=.running id::rest := by
  obtain ⟨-,⟨hidle,-⟩ | ⟨rest,queue,⟨id,hstack | hstack,-,-⟩,-⟩⟩ := hs
  · exact Or.inl hidle
  · exact Or.inr ⟨id,rest,hstack⟩
  · rw [hstack] at hc
    cases hc

/-- A new dispatch begins. -/
theorem Sound.update {m : Machine} (hs : Sound m) (hc : inControl m.stack=true) (now : ℤ) :
    Sound {m with sched := {m.sched with now := now},stack := .entry::m.stack} := by
  obtain ⟨hfault,⟨hidle,hacc⟩ | ⟨rest,queue,⟨id,hstack | hstack,hidle,hqueue⟩,hacc⟩⟩ := hs
  · exact ⟨hfault,Or.inl ⟨hidle.cons rfl,hacc⟩⟩
  · refine ⟨hfault,Or.inr ⟨rest,queue,⟨id,Or.inr ?_,hidle,hqueue⟩,hacc⟩⟩
    dsimp only
    rw [hstack]
  · rw [hstack] at hc
    cases hc

/-- An operation of the code in control. -/
theorem Sound.call {m : Machine} (hs : Sound m) (hc : inControl m.stack=true) {op : Op}
    (hsafe : SafeStep m (.op op)) : Sound (call m op) := by
  cases op with
  | shared op =>
    by_cases hop : op=.cancelAll
    · subst hop
      rcases hs.control hc with hidle | ⟨id,rest,hstack⟩
      · exact hs.cancelAll hidle
      · exact absurd hstack (hsafe id rest)
    · have hqueues := hs.queues (shared_queues hop m.sched)
      cases op with
      | cancelAll => exact absurd rfl hop
      | _ => exact hqueues
  | schedule time group => exact hs.queues (Or.inl ⟨rfl,rfl⟩)
  | context op =>
    simp only [TaskSchedulerAsync.call]
    split
    · rename_i id consumed rest hstack
      have hidle : Idle m.stack := by
        rcases hs.control hc with hidle | ⟨_,_,h⟩
        · exact hidle
        · cases hstack.symm.trans h
      have hnext : ∀ consumed', Idle (.task id consumed'::rest) := fun _ =>
        Idle.cons rfl (hstack ▸ hidle).tail
      split
      · exact hs
      rename_i consumed' sched hop
      by_cases hall : op=.shared .cancelAll
      · subst hall
        cases hop
        have hcancel := (hs.cancelAll hidle).frames hidle (hnext consumed)
        simp only [if_true]
        exact hcancel
      · have hqueues := (hs.queues (contextOp_queues hall hop)).frames hidle (hnext consumed')
        simp only [hall,if_false,List.append_nil]
        exact hqueues
    · exact hs
  | update difftime => exact hs.update hc _
  | updateTo now => exact hs.update hc now

/-- A frame that is neither a running callable nor an entry is on top of an idle stack. -/
theorem Sound.idle_of_top {m : Machine} (hs : Sound m) {f : Frame} {rest : List Frame}
    (hstack : m.stack=f::rest) (hf : isRunning f=false) (hentry : f≠.entry) : Idle m.stack := by
  obtain ⟨-,⟨hidle,-⟩ | ⟨_,_,⟨id,h | h,-,-⟩,-⟩⟩ := hs
  · exact hidle
  · cases hstack.symm.trans h
    cases hf
  · cases hstack.symm.trans h
    exact absurd rfl hentry

theorem Sound.replace {m : Machine} (hs : Sound m) {f : Frame} {rest stack : List Frame}
    (hstack : m.stack=f::rest) (hf : isRunning f=false) (hentry : f≠.entry)
    (hnext : Idle rest → Idle stack) : Sound {m with stack := stack} := by
  have hidle := hs.idle_of_top hstack hf hentry
  exact hs.frames hidle (hnext (hstack ▸ hidle).tail)

/-- The return of the code in control. -/
theorem Sound.return {m : Machine} (hs : Sound m) : Sound (step m .return) := by
  simp only [step]
  split
  · rename_i id rest hstack
    obtain ⟨hfault,⟨hidle,-⟩ | ⟨_,queue,⟨_,h | h,hidle,hqueue⟩,hacc⟩⟩ := hs
    · cases hidle (.running id) (hstack ▸ List.mem_cons_self)
    · cases hstack.symm.trans h
      rw [hqueue]
      exact ⟨hfault,Or.inl ⟨hidle.cons rfl,hacc⟩⟩
    · cases hstack.symm.trans h
  · rename_i hstack
    exact hs.replace hstack rfl (fun h => by cases h) fun h => h.cons rfl
  · rename_i hstack
    exact hs.replace hstack rfl (fun h => by cases h) id
  · exact hs

theorem Sound.validator {m : Machine} (hs : Sound m) {ok : Bool} (hsafe : SafeStep m (.validator ok)) :
    Sound (step m (.validator ok)) := by
  simp only [step]
  split
  · rename_i rest hstack
    cases ok with
    | true =>
      have hrest := hsafe rest hstack
      have hidle : Idle m.stack := hstack ▸ Idle.cons rfl hrest
      exact hs.frames hidle (Idle.cons rfl hrest)
    | false =>
      obtain ⟨hfault,⟨hidle,hacc⟩ | ⟨rest',queue,⟨id,h | h,hidle,hqueue⟩,hacc⟩⟩ := hs
      · exact ⟨hfault,Or.inl ⟨(hstack ▸ hidle).tail,hacc⟩⟩
      · cases hstack.symm.trans h
      · cases hstack.symm.trans h
        exact ⟨hfault,Or.inr ⟨rest',queue,⟨id,Or.inl rfl,hidle,hqueue⟩,hacc⟩⟩
  · rename_i rest hstack
    refine hs.replace hstack rfl (fun h => by cases h) fun h => ?_
    split
    · exact h.cons rfl
    · exact h
  · rename_i rest hstack
    refine hs.replace hstack rfl (fun h => by cases h) fun h => ?_
    split
    · exact h.cons rfl
    · exact h
  · exact hs

/-- The loop in control goes on. -/
theorem Sound.next {m : Machine} (hs : Sound m) : Sound (step m .next) := by
  simp only [step]
  split
  · rename_i rest hstack
    have hidle := hs.idle_of_top hstack rfl fun h => by cases h
    split
    · exact hs.frames hidle ((hstack ▸ hidle).tail.cons rfl)
    rename_i id queue hqueue
    have hfair := hs.fair
    have hacc := hfair.2
    rw [waiting_idle hidle,hqueue] at hacc
    exact ⟨hfair.1,Or.inr ⟨rest,queue,⟨id,Or.inl rfl,(hstack ▸ hidle).tail,hqueue⟩,hacc.call⟩⟩
  · rename_i rest hstack
    split
    · exact hs.replace hstack rfl (fun h => by cases h) fun h => h.cons rfl
    rename_i id holder _
    split
    · exact hs.replace hstack rfl (fun h => by cases h) fun h => h.cons rfl
    · have hnext : Idle rest → Idle (.task id false::rest) := fun h => h.cons rfl
      exact (hs.replace hstack rfl (fun h => by cases h) hnext).queues (Or.inl ⟨rfl,rfl⟩)
  · exact hs

theorem step_sound (m : Machine) (a : Action) (hs : Sound m) (hsafe : SafeStep m a) :
    Sound (step m a) := by
  cases a with
  | op op =>
    simp only [step]
    split
    · rename_i hc
      exact hs.call hc hsafe
    · exact hs
  | «return» => exact hs.return
  | validator ok => exact hs.validator hsafe
  | next => exact hs.next

/-- A scheduler with any tasks and `asyncs` queued callables, outside of `Dispatch`. -/
def start (now : ℤ) (task : ℕ → Task) (made : ℕ) (holder : List ℕ) (asyncs : ℕ) : Machine :=
  ⟨⟨now,task,made,holder,List.range asyncs,asyncs⟩,[],[],[],false⟩

theorem start_sound (now : ℤ) (task : ℕ → Task) (made : ℕ) (holder : List ℕ) (asyncs : ℕ) :
    Sound (start now task made holder asyncs) := by
  refine ⟨rfl,Or.inl ⟨fun f hf => absurd hf List.not_mem_nil,?_,?_⟩⟩
  · exact List.pairwise_lt_range
  · simp only [start,List.nil_append,List.append_nil]
    exact List.Perm.refl _

/-- In every run in which no callable of the asynchronous loop empties the queue
or starts a dispatch that the validator passes, no empty queue is popped, the
callables run in order and once, none is lost, and the loop is left only when
none is waiting. -/
theorem run_fair (now : ℤ) (task : ℕ → Task) (made : ℕ) (holder : List ℕ) (asyncs : ℕ)
    (actions : List Action) (hsafe : Meets step SafeStep (start now task made holder asyncs) actions) :
    Fair (run step (start now task made holder asyncs) actions) ∧
    ∀ rest, (run step (start now task made holder asyncs) actions).stack=.asyncs::rest →
      (step (run step (start now task made holder asyncs) actions) .next).stack=.tasks::rest →
      waiting (run step (start now task made holder asyncs) actions)=[] := by
  have hs := run_invariant step_sound (start_sound now task made holder asyncs) hsafe
  refine ⟨hs.fair,fun rest hstack hnext => ?_⟩
  rw [waiting_idle (hs.idle_of_top hstack rfl fun h => by cases h)]
  simp only [step,hstack] at hnext
  split at hnext
  · assumption
  · cases hnext

/-- A callable that queues another one while it runs. -/
theorem run_fair_queueing : Fair (run step (start 0 (fun _ => ⟨0,0,0,0⟩) 0 [] 1)
    [.op (.update 1),.validator true,.next,.op (.shared .async),.return,.validator true,.next]) := by
  refine (run_fair 0 (fun _ => ⟨0,0,0,0⟩) 0 [] 1 [.op (.update 1),.validator true,.next,
    .op (.shared .async),.return,.validator true,.next] ⟨trivial,?_,trivial,trivial,trivial,?_,trivial,
    trivial⟩).1
  · rintro rest hstack
    cases hstack
    exact fun f hf => absurd hf List.not_mem_nil
  · rintro rest hstack
    cases hstack

/-- A callable that cancels everything leaves `Dispatch` to pop an empty queue,
or to drop what the callable queued afterwards; one that updates the scheduler
is called again from within. -/
theorem callable_breaks_queue :
    (run step (start 0 (fun _ => ⟨0,0,0,0⟩) 0 [] 1) [.op (.update 1),.validator true,.next,
      .op (.shared .cancelAll),.return]).fault=true ∧
    ¬Fair (run step (start 0 (fun _ => ⟨0,0,0,0⟩) 0 [] 1) [.op (.update 1),.validator true,.next,
      .op (.shared .cancelAll),.op (.shared .async),.return]) ∧
    ¬Fair (run step (start 0 (fun _ => ⟨0,0,0,0⟩) 0 [] 1) [.op (.update 1),.validator true,.next,
      .op (.update 1),.validator true,.next]) := by
  refine ⟨rfl,fun h => ?_,fun h => ?_⟩
  · exact absurd (h.2.2.length_eq) (by decide)
  · exact absurd h.2.1 (by decide)

end Projectnelth.TaskSchedulerAsync
