import Mathlib
import Projectnelth.StableMultimap

/-!
# The task scheduler

`TaskScheduler` keeps shared task objects in a multiset ordered by their due
time `_end`, and callables in a queue. Tasks are references here as well: the
holder lists task numbers, and the order of the multiset is read from the
objects behind them, which operations change in place. Times are ticks of the
clock; a handler is known by the number of its task.
-/

namespace Projectnelth.TaskSchedulerModel

open StableMultimap

/-- `Task` without its handler. -/
structure Task where
  /-- `_end`, the due time. -/
  end_ : ℤ
  duration : ℤ
  group : UInt32
  repeated : UInt32

/-- The state of class `TaskScheduler`. -/
structure Scheduler where
  now : ℤ
  /-- The task objects by number. -/
  task : ℕ → Task
  /-- How many task objects have been made. -/
  made : ℕ
  /-- `_task_holder`, in container order. -/
  holder : List ℕ
  /-- `_asyncHolder`, by number of the callable, the front first. -/
  asyncHolder : List ℕ
  /-- How many callables have been queued. -/
  asyncs : ℕ

/-- The key of the multiset: the due time of the object behind a reference. -/
def due (task : ℕ → Task) (id : ℕ) : ℤ := (task id).end_

/-- `TaskQueue::Push`. -/
def push (id : ℕ) (s : Scheduler) : Scheduler :=
  {s with holder := insert (due s.task) id s.holder}

/-- `TaskQueue::RemoveIf`. -/
def removeIf (filter : Task → Bool) (s : Scheduler) : Scheduler :=
  {s with holder := s.holder.filter fun id => !filter (s.task id)}

/-- The loop of `TaskQueue::ModifyIf`: the filter changes an object in place and
tells whether the reference goes to the cache; the others stay. -/
def modifyLoop (filter : Task → Option Task) : (ℕ → Task) → List ℕ → (ℕ → Task)×List ℕ×List ℕ
  | task,[] => (task,[],[])
  | task,id::ids =>
    match filter (task id) with
    | some changed =>
      let result := modifyLoop filter (Function.update task id changed) ids
      (result.1,id::result.2.1,result.2.2)
    | none =>
      let result := modifyLoop filter task ids
      (result.1,result.2.1,id::result.2.2)

/-- `TaskQueue::ModifyIf`. -/
def modifyIf (filter : Task → Option Task) (s : Scheduler) : Scheduler :=
  let result := modifyLoop filter s.task s.holder
  {s with task := result.1,holder := insertAll (due result.1) result.2.1 result.2.2}

/-- `ScheduleAt`: a new task object is inserted. -/
def scheduleAt («end» time : ℤ) (group : UInt32) (s : Scheduler) : Scheduler :=
  push s.made {s with
    task := Function.update s.task s.made ⟨«end»+time,time,group,0⟩
    made := s.made+1}

def async (s : Scheduler) : Scheduler :=
  {s with asyncHolder := s.asyncHolder++[s.asyncs],asyncs := s.asyncs+1}

/-- `CancelAll`: both holders are replaced by empty ones. -/
def cancelAll (s : Scheduler) : Scheduler := {s with holder := [],asyncHolder := []}

def cancelGroup (group : UInt32) (s : Scheduler) : Scheduler :=
  removeIf (fun task => task.group == group) s

def cancelGroupsOf (groups : List UInt32) (s : Scheduler) : Scheduler :=
  groups.foldl (fun s group => cancelGroup group s) s

def delayAll (duration : ℤ) (s : Scheduler) : Scheduler :=
  modifyIf (fun task => some {task with end_ := task.end_+duration}) s

def delayGroup (group : UInt32) (duration : ℤ) (s : Scheduler) : Scheduler :=
  modifyIf (fun task =>
    if task.group=group then some {task with end_ := task.end_+duration} else none) s

def rescheduleAll (duration : ℤ) (s : Scheduler) : Scheduler :=
  let «end» := s.now+duration
  modifyIf (fun task => some {task with end_ := «end»}) s

def rescheduleGroup (group : UInt32) (duration : ℤ) (s : Scheduler) : Scheduler :=
  let «end» := s.now+duration
  modifyIf (fun task => if task.group=group then some {task with end_ := «end»} else none) s

/-- The operations that scheduler and task context share. -/
inductive SharedOp where
  | async
  | cancelAll
  | cancelGroup (group : UInt32)
  | cancelGroupsOf (groups : List UInt32)
  | delayAll (duration : ℤ)
  | delayGroup (group : UInt32) (duration : ℤ)
  | rescheduleAll (duration : ℤ)
  | rescheduleGroup (group : UInt32) (duration : ℤ)
  deriving DecidableEq

/-- What a shared operation does to the scheduler. -/
def shared : SharedOp → Scheduler → Scheduler
  | .async => async
  | .cancelAll => cancelAll
  | .cancelGroup group => cancelGroup group
  | .cancelGroupsOf groups => cancelGroupsOf groups
  | .delayAll duration => delayAll duration
  | .delayGroup group duration => delayGroup group duration
  | .rescheduleAll duration => rescheduleAll duration
  | .rescheduleGroup group duration => rescheduleGroup group duration

/-- The operations of a `TaskContext`. -/
inductive ContextOp where
  | repeatTask (duration : ℤ)
  | schedule (time : ℤ) (group : UInt32)
  | setGroup (group : UInt32)
  | shared (op : SharedOp)
  deriving DecidableEq

/-- `TaskContext::Repeat` after its assertion: the object is changed, then inserted. -/
def repeatTask (id : ℕ) (duration : ℤ) (s : Scheduler) : Scheduler :=
  let task := s.task id
  let task := {task with
    end_ := task.end_+duration
    duration := duration
    repeated := task.repeated+1}
  push id {s with task := Function.update s.task id task}

/-- `SetGroup` and, with group 0, `ClearGroup`. -/
def setGroup (id : ℕ) (group : UInt32) (s : Scheduler) : Scheduler :=
  let task := {s.task id with group := group}
  {s with task := Function.update s.task id task}

/-- One operation through the context of a task, by whether the context was
consumed; `none` is the failed assertion of a second `Repeat`. -/
def contextOp (id : ℕ) (consumed : Bool) (s : Scheduler) : ContextOp → Option (Bool×Scheduler)
  | .repeatTask duration => if consumed then none else some (true,repeatTask id duration s)
  | .schedule time group => some (consumed,scheduleAt (s.task id).end_ time group s)
  | .setGroup group => some (consumed,setGroup id group s)
  | .shared op => some (consumed,shared op s)

/-- A holder that is a multiset of distinct existing tasks in order of due time. -/
structure WellFormed (s : Scheduler) : Prop where
  sorted : Ordered (due s.task) s.holder
  /-- No task is queued twice. -/
  nodup : s.holder.Nodup
  /-- Queued tasks have been made. -/
  made : ∀ id∈s.holder, id < s.made

/-- Pushing a task that is not queued keeps the holder well formed. -/
theorem WellFormed.push {s : Scheduler} {id : ℕ} (hs : WellFormed s) (hid : id∉s.holder)
    (hmade : id < s.made) : WellFormed (push id s) where
  sorted := ordered_insert hs.sorted
  nodup := (insert_perm _ id s.holder).nodup_iff.mpr (List.nodup_cons.mpr ⟨hid,hs.nodup⟩)
  made i hi := by
    rcases mem_insert.mp hi with rfl | hi
    · exact hmade
    · exact hs.made i hi

/-- Changing an object that is not queued does not touch the holder. -/
theorem WellFormed.update {s : Scheduler} {id : ℕ} (hs : WellFormed s) (hid : id∉s.holder)
    (task : Task) : WellFormed {s with task := Function.update s.task id task} where
  sorted := by
    refine List.Pairwise.imp_of_mem ?_ hs.sorted
    intro i j hi hj hij
    have hine : i≠id := fun h => hid (h ▸ hi)
    have hjne : j≠id := fun h => hid (h ▸ hj)
    simpa only [due,Function.update_of_ne hine,Function.update_of_ne hjne] using hij
  nodup := hs.nodup
  made := hs.made

/-- What the loop of `ModifyIf` leaves: every object as the filter changed it,
and the references split into cache and rest. -/
theorem modifyLoop_spec (filter : Task → Option Task) (task : ℕ → Task) {ids : List ℕ}
    (hn : ids.Nodup) :
    (∀ i, (modifyLoop filter task ids).1 i=
      if i∈ids then (filter (task i)).getD (task i) else task i) ∧
    (modifyLoop filter task ids).2.1=ids.filter (fun i => (filter (task i)).isSome) ∧
    (modifyLoop filter task ids).2.2=ids.filter (fun i => !(filter (task i)).isSome) := by
  induction ids generalizing task with
  | nil => exact ⟨fun i => by rw [if_neg List.not_mem_nil]; rfl,rfl,rfl⟩
  | cons id ids ih =>
    obtain ⟨hid,hn⟩ := List.nodup_cons.mp hn
    cases hf : filter (task id) with
    | none =>
      obtain ⟨h1,h2,h3⟩ := ih task hn
      simp only [modifyLoop,hf]
      refine ⟨fun i => ?_,?_,?_⟩
      · rw [h1]
        by_cases hi : i=id
        · subst hi
          rw [if_neg hid,if_pos List.mem_cons_self,hf]
          rfl
        · simp only [List.mem_cons,hi,false_or]
      · rw [h2,List.filter_cons_of_neg (by rw [hf]; exact Bool.false_ne_true)]
      · rw [h3,List.filter_cons_of_pos (by rw [hf]; rfl)]
    | some changed =>
      have hsame : ∀ i∈ids, Function.update task id changed i=task i := by
        intro i hi
        exact Function.update_of_ne (fun h : i=id => hid (h ▸ hi)) changed task
      obtain ⟨h1,h2,h3⟩ := ih (Function.update task id changed) hn
      simp only [modifyLoop,hf]
      refine ⟨fun i => ?_,?_,?_⟩
      · rw [h1]
        by_cases hi : i=id
        · subst hi
          rw [if_neg hid,if_pos List.mem_cons_self,Function.update_self,hf]
          rfl
        · simp only [List.mem_cons,hi,false_or,Function.update_of_ne hi]
      · rw [h2,List.filter_cons_of_pos (by rw [hf]; rfl)]
        exact congrArg (id::·) (List.filter_congr fun i hi => by rw [hsame i hi])
      · rw [h3,List.filter_cons_of_neg (by rw [hf]; exact Bool.false_ne_true)]
        exact List.filter_congr fun i hi => by rw [hsame i hi]

/-- The holder after `ModifyIf` has the same tasks. -/
theorem modifyIf_perm (filter : Task → Option Task) {s : Scheduler} (hn : s.holder.Nodup) :
    (modifyIf filter s).holder.Perm s.holder := by
  obtain ⟨-,hcache,hrest⟩ := modifyLoop_spec filter s.task hn
  refine (insertAll_perm _ _ _).trans ?_
  rw [hcache,hrest]
  exact List.filter_append_perm (fun i => (filter (s.task i)).isSome) s.holder

/-- The objects after `ModifyIf`. -/
theorem modifyIf_task (filter : Task → Option Task) {s : Scheduler} (hn : s.holder.Nodup) (i : ℕ) :
    (modifyIf filter s).task i=
      if i∈s.holder then (filter (s.task i)).getD (s.task i) else s.task i :=
  (modifyLoop_spec filter s.task hn).1 i

/-- `ModifyIf` changes keys of queued tasks and still leaves a sorted holder:
the ones it changes are the ones it inserts again. -/
theorem WellFormed.modifyIf {s : Scheduler} (hs : WellFormed s) (filter : Task → Option Task) :
    WellFormed (modifyIf filter s) where
  sorted := by
    obtain ⟨htask,-,hrest⟩ := modifyLoop_spec filter s.task hs.nodup
    refine ordered_insertAll ?_
    rw [hrest]
    refine List.Pairwise.imp_of_mem ?_ (hs.sorted.filter _)
    have hkept : ∀ i, i∈s.holder.filter (fun i => !(filter (s.task i)).isSome) →
        due (modifyLoop filter s.task s.holder).1 i=due s.task i := by
      intro i hi
      obtain ⟨hmem,hnone⟩ := List.mem_filter.mp hi
      rw [Bool.not_eq_true',Option.isSome_eq_false_iff,Option.isNone_iff_eq_none] at hnone
      rw [due,htask,if_pos hmem,hnone]
      rfl
    intro i j hi hj hij
    exact (hkept i hi).trans_le (hij.trans_eq (hkept j hj).symm)
  nodup := (modifyIf_perm filter hs.nodup).nodup_iff.mpr hs.nodup
  made i hi := hs.made i ((modifyIf_perm filter hs.nodup).mem_iff.mp hi)

theorem WellFormed.removeIf {s : Scheduler} (hs : WellFormed s) (filter : Task → Bool) :
    WellFormed (removeIf filter s) where
  sorted := hs.sorted.filter _
  nodup := hs.nodup.filter _
  made i hi := hs.made i (List.mem_filter.mp hi).1

/-- `CancelGroupsOf` is one removal of all the groups. -/
theorem cancelGroupsOf_eq (groups : List UInt32) (s : Scheduler) :
    cancelGroupsOf groups s=removeIf (fun task => decide (task.group∈groups)) s := by
  induction groups generalizing s with
  | nil =>
    simp only [cancelGroupsOf,List.foldl_nil,removeIf,List.not_mem_nil,decide_false,
      Bool.not_false,List.filter_true]
  | cons group groups ih =>
    have hstep : cancelGroupsOf (group::groups) s=cancelGroupsOf groups (cancelGroup group s) := rfl
    rw [hstep,ih]
    simp only [cancelGroup,removeIf,List.filter_filter]
    congr 1
    refine List.filter_congr fun i _ => ?_
    simp only [List.mem_cons,Bool.decide_or,Bool.not_or,Bool.and_comm]
    rfl

/-- The shared operations keep the holder well formed. -/
theorem WellFormed.shared {s : Scheduler} (hs : WellFormed s) (op : SharedOp) :
    WellFormed (shared op s) := by
  cases op with
  | async => exact ⟨hs.sorted,hs.nodup,hs.made⟩
  | cancelAll =>
    exact ⟨List.Pairwise.nil,List.nodup_nil,fun i hi => absurd hi List.not_mem_nil⟩
  | cancelGroup group => exact hs.removeIf fun task => task.group == group
  | cancelGroupsOf groups =>
    rw [TaskSchedulerModel.shared,cancelGroupsOf_eq]
    exact hs.removeIf _
  | delayAll duration => exact hs.modifyIf _
  | delayGroup group duration => exact hs.modifyIf _
  | rescheduleAll duration => exact hs.modifyIf _
  | rescheduleGroup group duration => exact hs.modifyIf _

/-- A new task is not queued yet. -/
theorem WellFormed.scheduleAt {s : Scheduler} (hs : WellFormed s) (e time : ℤ) (group : UInt32) :
    WellFormed (scheduleAt e time group s) := by
  have hnew : s.made∉s.holder := fun h => absurd (hs.made _ h) (Nat.lt_irrefl _)
  have hupdate := hs.update hnew ⟨e+time,time,group,0⟩
  refine WellFormed.push ⟨hupdate.sorted,hupdate.nodup,fun i hi => ?_⟩ hnew (Nat.lt_succ_self _)
  exact Nat.lt_succ_of_lt (hs.made i hi)

theorem WellFormed.repeatTask {s : Scheduler} (hs : WellFormed s) {id : ℕ} (hid : id∉s.holder)
    (hmade : id < s.made) (duration : ℤ) : WellFormed (repeatTask id duration s) :=
  (hs.update hid _).push hid hmade

theorem due_setGroup (id : ℕ) (group : UInt32) (s : Scheduler) :
    due (setGroup id group s).task=due s.task := by
  funext i
  by_cases hi : i=id
  · subst hi
    simp only [due,setGroup,Function.update_self]
  · simp only [due,setGroup,Function.update_of_ne hi]

theorem WellFormed.setGroup {s : Scheduler} (hs : WellFormed s) (id : ℕ) (group : UInt32) :
    WellFormed (setGroup id group s) :=
  ⟨(due_setGroup id group s).symm ▸ hs.sorted,hs.nodup,hs.made⟩

end Projectnelth.TaskSchedulerModel
