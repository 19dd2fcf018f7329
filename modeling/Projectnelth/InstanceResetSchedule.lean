import Mathlib
import Projectnelth.StableMultimap
import Projectnelth.WhileLoop

/-!
# When instances are reset

`LoadResetTimes` schedules an event for each instance that has a reset time of its own, and one for
each map and difficulty whose instances are all reset at one time. `Update` handles the events that
are due: it resets the instance, or it warns and schedules the next warning, or it resets all and
schedules the first warning of the next time. The first event is held by reference and taken away
as the first one of the queue. An event has sixteen bits for the id of an instance. Times are
seconds and are not negative; what a reset does to the maps and to the database is outside.
-/

namespace Projectnelth.InstanceResetSchedule

open StableMultimap WhileLoop

def MINUTE : ℤ := 60

def HOUR : ℤ := 3600

def DAY : ℤ := 86400

/-- A map and a difficulty. -/
abbrev Pair := UInt16×UInt8

/-- `ResetTimeDelay[type-1]`. -/
def ResetTimeDelay (type : UInt8) : ℤ := ([3600,900,300,60] : List ℤ).getD (type.toNat-1) 0

structure InstResetEvent where
  /-- Zero for one instance, or how far the reset of all has come. -/
  type : UInt8
  difficulty : UInt8
  mapid : UInt16
  instanceId : UInt16
  deriving DecidableEq

/-- The constructor, for an instance of any id. -/
def InstResetEvent.new (type : UInt8) (pair : Pair) (instanceId : UInt32) : InstResetEvent :=
  ⟨type,pair.2,pair.1,instanceId.toUInt16⟩

/-- The map and the difficulty of an event. -/
def InstResetEvent.pair (event : InstResetEvent) : Pair := (event.mapid,event.difficulty)

/-- What the maps and the configuration say. -/
structure Env where
  /-- The keys of `sMapDifficultyMap`. -/
  maps : List Pair
  /-- A key is there once. -/
  nodup : maps.Nodup
  /-- `resetTime` of a map and difficulty. -/
  resetTime : Pair → UInt32
  /-- A reset time under `RATE_INSTANCE_RESET_TIME`, in whole seconds. -/
  scaled : UInt32 → UInt32
  /-- `CONFIG_INSTANCE_RESET_TIME_HOUR`. -/
  resetTimeHour : ℕ
  /-- `Instanceable` of a map. -/
  instanceable : UInt16 → Bool

/-- The hour of the configuration in seconds. -/
def Env.diff (e : Env) : ℤ := e.resetTimeHour*HOUR

/-- The time between two resets, a day at least. -/
def Env.period (e : Env) (pair : Pair) : ℤ := max DAY (e.scaled (e.resetTime pair)).toNat

/-- The reset time of a map after another one, before it is stored. -/
def Env.next (e : Env) (pair : Pair) (resetTime : ℤ) : ℤ :=
  (resetTime+MINUTE)/DAY*DAY+e.period pair+e.diff

/-- `InstanceSaveManager`: its queue and its reset times, and what it has done. -/
structure InstanceSaveManager where
  /-- `m_resetTimeByMapDifficulty`, zero where there is no entry. -/
  resetTimes : Pair → ℤ
  /-- `m_resetTimeQueue`. -/
  queue : List (ℤ×InstResetEvent)
  instances : List (UInt16×UInt32)
  /-- The events of whole maps that were handled: how far they were and the reset time. -/
  handled : List (Pair×UInt8×ℤ)
  /-- The resets of whole maps, with the reset times they were for. -/
  resets : List (Pair×ℤ)

namespace InstanceSaveManager

variable (s : InstanceSaveManager) (e : Env)

def SetResetTimeFor (pair : Pair) (t : ℤ) : InstanceSaveManager :=
  { s with resetTimes := Function.update s.resetTimes pair t }

/-- `ScheduleReset` of a new event. -/
def ScheduleReset (time : ℤ) (event : InstResetEvent) : InstanceSaveManager :=
  { s with queue := insert Prod.fst (time,event) s.queue }

def ResetInstance (mapid : UInt16) (instanceId : UInt32) : InstanceSaveManager :=
  if e.instanceable mapid then { s with instances := s.instances++[(mapid,instanceId)] } else s

/-- `_ResetOrWarnAll`. The next reset time is a word of 32 bits. -/
def ResetOrWarnAll (pair : Pair) (warn : Bool) (resetTime : ℤ) : InstanceSaveManager :=
  if !e.instanceable pair.1 then s
  else if warn then s
  else if pair∉e.maps ∨ e.resetTime pair=0 then s
  else
    let next_reset := e.next pair resetTime % 2^32
    let s := { s with resets := s.resets++[(pair,resetTime)] }
    (s.SetResetTimeFor pair next_reset).ScheduleReset ((next_reset-3600) % 2^32)
      (InstResetEvent.new 1 pair 0)

/-- The first element of the queue is erased. -/
def erase : InstanceSaveManager := { s with queue := s.queue.tail }

/-- A round of `Update`, and whether the loop goes on. -/
def updateRound (now : ℤ) : InstanceSaveManager×Bool :=
  match s.queue with
  | [] => (s,false)
  | (t,event)::rest =>
    if now ≤ t then (s,false)
    else if event.type=0 then
      ((s.ResetInstance e event.mapid event.instanceId.toUInt32).erase,true)
    else
      let resetTime := s.resetTimes event.pair
      let s := { s with handled := s.handled++[(event.pair,event.type,resetTime)] }
      let s := s.ResetOrWarnAll e event.pair (event.type≠4) resetTime
      if event.type≠4 then
        -- the event is changed where it stands, and a copy of it goes into the queue
        let event := { event with type := event.type+1 }
        let s := { s with queue := (t,event)::rest }
        ((s.ScheduleReset (resetTime-ResetTimeDelay event.type) event).erase,true)
      else (s.erase,true)

/-- `Update` at a time leads from the first state to the second one. -/
def Update (now : ℤ) : InstanceSaveManager → InstanceSaveManager → Prop :=
  Runs (fun s => !s.queue.isEmpty) fun s => s.updateRound e now

end InstanceSaveManager

/-- A row of the instances that have a reset time of their own. -/
structure InstanceRow where
  id : UInt32
  /-- Map and difficulty. -/
  pair : Pair
  resetTime : UInt32
  deriving DecidableEq

/-- What the database holds. -/
structure Database where
  /-- The instances with a reset time, by id. -/
  instances : List InstanceRow
  nodup : (instances.map InstanceRow.id).Nodup
  /-- The first row of the greatest respawn times, with the instance. No other row is read: the
  loop goes on as the one before does, which has come to its end. -/
  respawn : Option (UInt32×UInt32)
  resetTimes : List (Pair×UInt32)

/-- The reset time of an instance, after the respawn time was looked at. -/
def Database.resetTime (d : Database) (row : InstanceRow) : ℤ :=
  match d.respawn with
  | some (respawn,id) => if id=row.id then (respawn+7200).toNat else row.resetTime.toNat
  | none => row.resetTime.toNat

namespace InstanceSaveManager

variable (e : Env) (d : Database) (now : ℤ) (s : InstanceSaveManager)

/-- The instances are scheduled whose times are still to come. -/
def scheduleInstances (rows : List InstanceRow) : InstanceSaveManager :=
  rows.foldl (fun s row =>
    if now < d.resetTime row then
      s.ScheduleReset (d.resetTime row) (InstResetEvent.new 0 row.pair row.id)
    else s) s

/-- The stored reset times get the hour of the configuration. -/
def loadStored : InstanceSaveManager :=
  d.resetTimes.foldl (fun s row =>
    if row.1∈e.maps then s.SetResetTimeFor row.1 ((row.2.toNat : ℤ)/DAY*DAY+e.diff) else s) s

/-- The reset time of a map at the start: the stored one, a first one, or the next one for one that
is over. -/
def firstTime (pair : Pair) : ℤ :=
  let today := now/DAY*DAY
  let t := if s.resetTimes pair=0 then today+e.period pair+e.diff else s.resetTimes pair
  if t < now then
    t/DAY*DAY+(((today-t/DAY*DAY)/e.period pair+1)*e.period pair+e.diff)
  else t

/-- How far the reset of a map is at the start. -/
def firstType (t : ℤ) : UInt8 :=
  if now < t-ResetTimeDelay 1 then 1
  else if now < t-ResetTimeDelay 2 then 2
  else if now < t-ResetTimeDelay 3 then 3
  else 4

/-- The event of a map is scheduled, and one more for each of its instances. -/
def scheduleMap (pair : Pair) : InstanceSaveManager :=
  if e.resetTime pair=0 then s
  else
    let t := s.firstTime e now pair
    let type := firstType now t
    let s := (s.SetResetTimeFor pair t).ScheduleReset (t-ResetTimeDelay type)
      (InstResetEvent.new type pair 0)
    (d.instances.filter fun row => row.pair=pair).foldl (fun s row =>
      s.ScheduleReset (t-ResetTimeDelay type) (InstResetEvent.new type pair row.id)) s

def LoadResetTimes : InstanceSaveManager :=
  let s : InstanceSaveManager := ⟨fun _ => 0,[],[],[],[]⟩
  let s := s.scheduleInstances d now d.instances
  let s := s.loadStored e d
  e.maps.foldl (fun s pair => s.scheduleMap e d now pair) s

end InstanceSaveManager

/-- The queue is updated at one time after the other. -/
def Updates (e : Env) : List ℤ → InstanceSaveManager → InstanceSaveManager → Prop
  | [],s,s' => s'=s
  | now::nows,s,s' => ∃ t,s.Update e now t ∧ Updates e nows t s'

section Schedule

variable (e : Env) (d : Database) (now : ℤ) (pair : Pair)

/-- What follows in the resets of a map: the next warning or the reset, and then the first warning
of the next time. -/
def follow (x : UInt8×ℤ) : UInt8×ℤ := if x.1=4 then (1,e.next pair x.2) else (x.1+1,x.2)

/-- The first reset time of a map. -/
def start : ℤ :=
  ((⟨fun _ => 0,[],[],[],[]⟩ : InstanceSaveManager).loadStored e d).firstTime e now pair

/-- The warnings and resets of a map as they are to come, each with its reset time. -/
def schedule (n : ℕ) : UInt8×ℤ :=
  (follow e pair)^[n] (InstanceSaveManager.firstType now (start e d now pair),start e d now pair)

/-- When a warning or a reset is due. -/
def dueTime (x : UInt8×ℤ) : ℤ := x.2-ResetTimeDelay x.1

/-- The event for a warning or a reset. -/
def event (x : UInt8×ℤ) : ℤ×InstResetEvent := (dueTime x,InstResetEvent.new x.1 pair 0)

/-- The event for an instance. -/
def instanceEvent (row : InstanceRow) : ℤ×InstResetEvent :=
  (d.resetTime row,InstResetEvent.new 0 row.pair row.id)

/-- The instances that are scheduled. -/
def scheduled : List InstanceRow := d.instances.filter fun row => now < d.resetTime row

/-- The maps that are reset as a whole. -/
def Env.resetMaps : List Pair := e.maps.filter fun pair => e.resetTime pair≠0

/-- The state of the resets of one map, when so many warnings and resets were due. -/
structure MapKept (last : ℤ) (s : InstanceSaveManager) (n : ℕ) : Prop where
  pending : (s.queue.filter fun x => x.2.type≠0 ∧ x.2.pair=pair)=
    [event pair (schedule e d now pair n)]
  resetTime : s.resetTimes pair=(schedule e d now pair n).2
  /-- The warnings and resets were handled in their order. -/
  handled : (s.handled.filter fun x => x.1=pair)=
    (List.range n).map fun i => (pair,schedule e d now pair i)
  resets : (s.resets.filter fun x => x.1=pair)=
    ((List.range n).filter fun i => (schedule e d now pair i).1=4).map fun i =>
      (pair,(schedule e d now pair i).2)
  later : (s.resets.filter fun x => x.1=pair).Pairwise fun x y => x.2 < y.2
  due : ∀ i < n,dueTime (schedule e d now pair i) < last

/-- All that was due was done, and nothing else. -/
structure Kept (last : ℤ) (s : InstanceSaveManager) : Prop where
  /-- Each scheduled instance that was due was reset, and once. -/
  instances : s.instances.Perm
    (((scheduled d now).filter fun row => d.resetTime row < last).map fun row =>
      (row.pair.1,row.id))
  maps : ∀ pair∈e.resetMaps,∃ n,MapKept e d now pair last s n

/-- What the resets that are due ask for. -/
structure Orderly (last : ℤ) : Prop where
  /-- The ids of the instances have sixteen bits, and their maps have instances. -/
  instances : ∀ row∈scheduled d now,d.resetTime row < last →
    row.id.toNat < 2^16 ∧ e.instanceable row.pair.1=true
  /-- No instance with a reset time of its own is one of a map that is reset as a whole. -/
  apart : ∀ row∈d.instances,row.pair∉e.resetMaps
  /-- A map that is reset has instances, its next reset time has 32 bits, and the first warning of
  it does not come before the reset. -/
  maps : ∀ pair∈e.resetMaps,∀ n,(schedule e d now pair n).1=4 →
    dueTime (schedule e d now pair n) < last →
      e.instanceable pair.1=true ∧ e.next pair (schedule e d now pair n).2 < 2^32 ∧
        dueTime (schedule e d now pair n) ≤ dueTime (schedule e d now pair (n+1))

end Schedule

end Projectnelth.InstanceResetSchedule
