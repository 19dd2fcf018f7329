import Mathlib

/-!
# The game events

An event is active in the windows of its period between its start and its end. The manager looks at
all events and sleeps until the first of them says that it may change.
-/

namespace Projectnelth.GameEventModel

/-- `max_ge_check_delay`, a day. -/
def max_ge_check_delay : ℤ := 86400

inductive GameEventState
  | GAMEEVENT_NORMAL
  | GAMEEVENT_WORLD_INACTIVE
  | GAMEEVENT_WORLD_CONDITIONS
  | GAMEEVENT_WORLD_NEXTPHASE
  | GAMEEVENT_WORLD_FINISHED
  | GAMEEVENT_INTERNAL
  deriving DecidableEq

open GameEventState

structure GameEventFinishCondition where
  reqNum : ℚ
  done : ℚ

/-- `GameEventData`. The times are seconds, occurence and length are minutes. -/
structure GameEventData where
  start : ℤ
  /-- `end`. -/
  «end» : ℤ
  nextstart : ℤ
  occurence : UInt32
  length : UInt32
  state : GameEventState
  conditions : List GameEventFinishCondition
  prerequisite_events : List ℕ

/-- A number as `uint32`. -/
def uint32 (n : ℤ) : ℤ := n%2^32

/-- `occurence * MINUTE`. -/
def GameEventData.period (data : GameEventData) : ℤ := uint32 (data.occurence.toNat*60)

/-- `length * MINUTE`. -/
def GameEventData.window (data : GameEventData) : ℤ := uint32 (data.length.toNat*60)

/-- The seconds of the period that have passed. -/
def GameEventData.passed (data : GameEventData) (currenttime : ℤ) : ℤ :=
  (currenttime-data.start)%data.period

structure GameEventMgr where
  mGameEvent : ℕ → GameEventData
  /-- `mGameEvent.size()`. -/
  size : ℕ
  m_ActiveEvents : List ℕ

namespace GameEventMgr

variable (mgr : GameEventMgr) (entry : ℕ) (currenttime : ℤ)

/-- `CheckOneGameEvent`; none where the period is no divisor. -/
def CheckOneGameEvent : Option Bool :=
  let data := mgr.mGameEvent entry
  match data.state with
  | GAMEEVENT_NORMAL =>
    if data.start < currenttime ∧ currenttime < data.end then
      if data.period=0 then none
      else some (data.passed currenttime < data.window)
    else some false
  | GAMEEVENT_WORLD_CONDITIONS => some true
  | GAMEEVENT_WORLD_NEXTPHASE => some true
  | GAMEEVENT_WORLD_FINISHED => some false
  | GAMEEVENT_INTERNAL => some false
  | GAMEEVENT_WORLD_INACTIVE =>
    if data.prerequisite_events.any fun itr =>
        ((mgr.mGameEvent itr).state≠GAMEEVENT_WORLD_NEXTPHASE &&
          (mgr.mGameEvent itr).state≠GAMEEVENT_WORLD_FINISHED) ||
        decide (currenttime < (mgr.mGameEvent itr).nextstart)
      then some false
    else some (!data.prerequisite_events.isEmpty)

/-- `NextCheck`; none where the period is no divisor. -/
def NextCheck : Option ℤ :=
  let data := mgr.mGameEvent entry
  if (data.state=GAMEEVENT_WORLD_NEXTPHASE ∨ data.state=GAMEEVENT_WORLD_FINISHED) ∧
      currenttime ≤ data.nextstart then
    some (uint32 (data.nextstart-currenttime))
  else if data.state=GAMEEVENT_WORLD_CONDITIONS then
    if data.length≠0 then some data.window else some max_ge_check_delay
  -- outdated event
  else if data.end < currenttime then some max_ge_check_delay
  -- never started event
  else if currenttime < data.start then some (uint32 (data.start-currenttime))
  else if data.period=0 then none
  else
    let delay :=
      if data.passed currenttime < data.window then
        uint32 (data.window-data.passed currenttime)
      else uint32 (data.period-data.passed currenttime)
    if data.end < currenttime+delay then some (uint32 (data.end-currenttime))
    else some delay

/-- The event of an entry is replaced. -/
def setEvent (data : GameEventData) : GameEventMgr :=
  {mgr with mGameEvent := Function.update mgr.mGameEvent entry data}

def CheckOneGameEventConditions : GameEventMgr×Bool :=
  let data := mgr.mGameEvent entry
  if data.conditions.any fun condition => condition.done < condition.reqNum then (mgr,false)
  else
    (mgr.setEvent entry
      {data with
        state := GAMEEVENT_WORLD_NEXTPHASE
        nextstart := if data.nextstart=0 then currenttime+data.window else data.nextstart},true)

/-- `StartEvent` as `Update` calls it, without overwriting. -/
def StartEvent : GameEventMgr×Bool :=
  let data := mgr.mGameEvent entry
  let active := {mgr with m_ActiveEvents := mgr.m_ActiveEvents.insert entry}
  if data.state=GAMEEVENT_NORMAL ∨ data.state=GAMEEVENT_INTERNAL then (active,false)
  else
    let started :=
      if data.state=GAMEEVENT_WORLD_INACTIVE then
        active.setEvent entry {data with state := GAMEEVENT_WORLD_CONDITIONS}
      else active
    started.CheckOneGameEventConditions entry currenttime

/-- `StopEvent` as `Update` calls it, without overwriting. -/
def StopEvent : GameEventMgr :=
  let data := mgr.mGameEvent entry
  let stopped := {mgr with m_ActiveEvents := mgr.m_ActiveEvents.erase entry}
  if data.state≠GAMEEVENT_NORMAL ∧ data.state≠GAMEEVENT_INTERNAL ∧
      data.state≠GAMEEVENT_WORLD_FINISHED then
    stopped.setEvent entry
      {data with
        nextstart := 0
        state := GAMEEVENT_WORLD_INACTIVE
        conditions := data.conditions.map fun condition => {condition with done := 0}}
  else stopped

end GameEventMgr

/-- `insert` of a `std::set`: once, in the order of the ids. -/
def insertEvent (events : List ℕ) (itr : ℕ) : List ℕ :=
  if itr∈events then events else events.orderedInsert (· ≤ ·) itr

/-- What `Update` has gathered. -/
structure Updating where
  mgr : GameEventMgr
  nextEventDelay : ℤ
  activate : List ℕ
  deactivate : List ℕ

/-- The delay of an event is the next one where it is the least. -/
def Updating.delayed (update : Updating) (itr : ℕ) (currenttime : ℤ) : Option Updating := do
  let calcDelay ← update.mgr.NextCheck itr currenttime
  some {update with
    nextEventDelay :=
      if calcDelay < update.nextEventDelay then calcDelay else update.nextEventDelay}

/-- `Update` at one event. -/
def Updating.event (currenttime : ℤ) (update : Updating) (itr : ℕ) : Option Updating := do
  let active ← update.mgr.CheckOneGameEvent itr currenttime
  let data := update.mgr.mGameEvent itr
  if active then
    if data.state=GAMEEVENT_WORLD_NEXTPHASE ∧ data.nextstart ≤ currenttime then
      -- the event needs no timer any more
      some {update with
        mgr := update.mgr.setEvent itr
          {data with state := GAMEEVENT_WORLD_FINISHED,nextstart := 0}
        deactivate :=
          if itr∈update.mgr.m_ActiveEvents then insertEvent update.deactivate itr
          else update.deactivate}
    else
      let checked :=
        if data.state=GAMEEVENT_WORLD_CONDITIONS then
          (update.mgr.CheckOneGameEventConditions itr currenttime).1
        else update.mgr
      let queued := {update with
        mgr := checked
        activate :=
          if itr∈checked.m_ActiveEvents then update.activate
          else insertEvent update.activate itr}
      queued.delayed itr currenttime
  else
    let queued := {update with
      deactivate :=
        if itr∈update.mgr.m_ActiveEvents then insertEvent update.deactivate itr
        else update.deactivate}
    queued.delayed itr currenttime

/-- The events are examined one after the other, from the first one on. -/
def GameEventMgr.examine (mgr : GameEventMgr) (currenttime : ℤ) : Option Updating :=
  (List.range' 1 (mgr.size-1)).foldlM (Updating.event currenttime)
    ⟨mgr,max_ge_check_delay,[],[]⟩

/-- `Update`: the manager and the delay until the next one in milliseconds. -/
def GameEventMgr.Update (mgr : GameEventMgr) (currenttime : ℤ) : Option (GameEventMgr×ℤ) := do
  let update ← mgr.examine currenttime
  let started := update.activate.foldl
    (fun started itr =>
      let next := started.1.StartEvent itr currenttime
      (next.1,if next.2 then 0 else started.2))
    (update.mgr,update.nextEventDelay)
  let stopped := update.deactivate.foldl GameEventMgr.StopEvent started.1
  some (stopped,uint32 ((started.2+1)*1000))

end Projectnelth.GameEventModel
