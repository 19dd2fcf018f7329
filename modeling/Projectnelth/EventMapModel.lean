import Mathlib
import Projectnelth.StableMultimap

/-!
# The event map of creature scripts

`EventMap` keeps scheduled events in a `std::multimap` from due time to event
word. Timer, due times and delays are `uint32` and wrap; the word carries the
event id in bits 0-31, the group bits in 32-47 and the phase bits in 48-63.
Every entry also carries a label that no operation inspects: the source has
none, and any labelling is carried along unchanged.
-/

namespace Projectnelth.EventMapModel

open StableMultimap

/-- `EVENT_MASK`: the bits of the event id. -/
def EVENT_MASK : UInt64 := 0x00000000FFFFFFFF

/-- `PHASE_MASK`: the bits of the phases. -/
def PHASE_MASK : UInt64 := 0xFFFF000000000000

/-- One element of `_eventMap`, with its label. -/
structure Event (τ : Type) where
  /-- The multimap key: the timer value at which the event is due. -/
  due : UInt32
  /-- The word `0xPPPPGGGGEEEEEEEE`. -/
  data : UInt64
  /-- The label carried along. -/
  label : τ
  deriving DecidableEq

/-- The fields of class `EventMap`. -/
structure EventMap (τ : Type) where
  /-- `_time`, the timer in milliseconds. -/
  time : UInt32
  /-- `_phase`, the mask of active phases. -/
  phase : UInt16
  /-- `_lastEvent`, the word of the event returned last. -/
  lastEvent : UInt64
  /-- `_eventMap`, in key order. -/
  eventMap : List (Event τ)

variable {τ : Type}

/-- The key order of the multimap. -/
def key (e : Event τ) : ℕ := e.due.toNat

/-- The event id of a word. -/
def eventId (e : Event τ) : UInt64 := e.data &&& EVENT_MASK

/-- The bit of a group in the event word. -/
def groupBit (group : UInt16) : UInt64 := 1<<<(group.toUInt64+31)

/-- The bit of a phase in the event word. -/
def phaseBit (phase : UInt16) : UInt64 := 1<<<(phase.toUInt64+47)

/-- Membership in a group, as the readers test it. -/
def inGroup (group : UInt16) (e : Event τ) : Bool := e.data &&& groupBit group != 0

/-- The test by which `ExecuteEvent` drops a due event. -/
def excluded (phase : UInt16) (e : Event τ) : Bool :=
  phase != 0 && e.data &&& PHASE_MASK != 0 && (e.data>>>48) &&& phase.toUInt64 == 0

/-- `Reset` clears events, timer and phase, and keeps the last event. -/
def reset (m : EventMap τ) : EventMap τ := {m with eventMap := [],time := 0,phase := 0}

def update (time : UInt32) (m : EventMap τ) : EventMap τ := {m with time := m.time+time}

/-- `SetPhase`: absolute, 0 resets, values above 16 are ignored. -/
def setPhase (phase : UInt16) (m : EventMap τ) : EventMap τ :=
  if phase=0 then {m with phase := 0}
  else if phase ≤ 16 then {m with phase := 1<<<(phase-1)}
  else m

def addPhase (phase : UInt16) (m : EventMap τ) : EventMap τ :=
  if phase≠0 ∧ phase ≤ 16 then {m with phase := m.phase ||| 1<<<(phase-1)} else m

def removePhase (phase : UInt16) (m : EventMap τ) : EventMap τ :=
  if phase≠0 ∧ phase ≤ 16 then {m with phase := m.phase &&& ~~~(1<<<(phase-1))} else m

/-- The word `ScheduleEvent` builds; group and phase 16 and above are not encoded. -/
def eventWord (eventId : UInt32) (group phase : UInt16) : UInt64 :=
  let word := eventId.toUInt64
  let word := if group≠0 ∧ group < 16 then word ||| groupBit group else word
  if phase≠0 ∧ phase < 16 then word ||| phaseBit phase else word

def scheduleEvent (eventId time : UInt32) (group phase : UInt16) (label : τ) (m : EventMap τ) :
    EventMap τ :=
  {m with eventMap := insert key ⟨m.time+time,eventWord eventId group phase,label⟩ m.eventMap}

/-- `Repeat`: the word returned last is scheduled again. -/
def repeatEvent (time : UInt32) (label : τ) (m : EventMap τ) : EventMap τ :=
  {m with eventMap := insert key ⟨m.time+time,m.lastEvent,label⟩ m.eventMap}

/-- `urand`, with what the generator gives: a value from `min` to `max`. -/
def urand (random min max : UInt32) : UInt32 :=
  if max ≤ min then (if max=min then min else 0)
  else ((random.toUInt64*(max-min+1).toUInt64)>>>32).toUInt32+min

/-- `ScheduleNextEvent(uint32)`: the event after the word returned last. -/
def scheduleNextEvent (time : UInt32) (label : τ) (m : EventMap τ) : EventMap τ :=
  {m with eventMap := insert key ⟨m.time+time,m.lastEvent+1,label⟩ m.eventMap}

/-- `ScheduleNextEvent(uint32, uint32)`. -/
def scheduleNextEventRanged (random minTime maxTime : UInt32) (label : τ) (m : EventMap τ) :
    EventMap τ := scheduleNextEvent (urand random minTime maxTime) label m

/-- `ScheduleNextEvent(Milliseconds)`, which calls `Repeat`. -/
def scheduleNextEventMs (time : ℤ) (label : τ) (m : EventMap τ) : EventMap τ :=
  repeatEvent (UInt32.ofInt time) label m

/-- `ScheduleNextEvent(Milliseconds, Milliseconds)`, which calls `Repeat`. -/
def scheduleNextEventMsRanged (random : UInt32) (minTime maxTime : ℤ) (label : τ)
    (m : EventMap τ) : EventMap τ :=
  repeatEvent (urand random (UInt32.ofInt minTime) (UInt32.ofInt maxTime)) label m

def isInPhase (phase : UInt16) (m : EventMap τ) : Bool :=
  phase ≤ 16 && (phase=0 || m.phase &&& (1<<<(phase-1)) != 0)

/-- The loop of `ExecuteEvent`: due events that the phases exclude are dropped
on the way to the first other due event. -/
def executeLoop (time : UInt32) (phase : UInt16) :
    List (Event τ) → Option (Event τ)×List (Event τ)
  | [] => (none,[])
  | e::es =>
    if time < e.due then (none,e::es)
    else if excluded phase e then executeLoop time phase es
    else (some e,es)

/-- `ExecuteEvent`, with the whole event it takes out; the source returns the
id of that event, or 0 when there is none. -/
def executeEvent (m : EventMap τ) : Option (Event τ)×EventMap τ :=
  match executeLoop m.time m.phase m.eventMap with
  | (none,es) => (none,{m with eventMap := es})
  | (some e,es) => (some e,{m with eventMap := es,lastEvent := e.data})

/-- The common body of the delaying operations: the chosen events go through
a second multimap under their new keys and are inserted again. -/
def delayWhere (p : Event τ → Bool) (delay : UInt32) (m : EventMap τ) : EventMap τ :=
  let delayed := insertAll key
    ((m.eventMap.filter p).map fun e => {e with due := e.due+delay}) []
  {m with eventMap := insertAll key delayed (m.eventMap.filter fun e => !p e)}

def delayEvent (eventID delay : UInt32) (m : EventMap τ) : EventMap τ :=
  if m.eventMap=[] then m
  else delayWhere (fun e => eventId e == eventID.toUInt64) delay m

/-- `DelayEvents(delay)`: the timer is taken back, at most to 0. -/
def delayEvents (delay : UInt32) (m : EventMap τ) : EventMap τ :=
  {m with time := if delay < m.time then m.time-delay else 0}

/-- `DelayEvents(delay, group)`. -/
def delayEventsGroup (delay : UInt32) (group : UInt16) (m : EventMap τ) : EventMap τ :=
  if group=0 ∨ 16 < group ∨ m.eventMap=[] then m
  else delayWhere (inGroup group) delay m

def cancelEvent (id : UInt32) (m : EventMap τ) : EventMap τ :=
  if m.eventMap=[] then m
  else {m with eventMap := m.eventMap.filter fun e => !(id.toUInt64 == eventId e)}

def cancelEventGroup (group : UInt16) (m : EventMap τ) : EventMap τ :=
  if group=0 ∨ 16 < group ∨ m.eventMap=[] then m
  else {m with eventMap := m.eventMap.filter fun e => !inGroup group e}

/-- The operations a script can call. -/
inductive Op where
  | reset
  | update (time : UInt32)
  | setPhase (phase : UInt16)
  | addPhase (phase : UInt16)
  | removePhase (phase : UInt16)
  | scheduleEvent (eventId time : UInt32) (group phase : UInt16)
  | repeatEvent (time : UInt32)
  | executeEvent
  | delayEvent (eventID delay : UInt32)
  | delayEvents (delay : UInt32)
  | delayEventsGroup (delay : UInt32) (group : UInt16)
  | cancelEvent (eventId : UInt32)
  | cancelEventGroup (group : UInt16)

/-- One call. The label goes to the event the call schedules, if any. -/
def apply (label : τ) (m : EventMap τ) : Op → Option (Event τ)×EventMap τ
  | .reset => (none,reset m)
  | .update time => (none,update time m)
  | .setPhase phase => (none,setPhase phase m)
  | .addPhase phase => (none,addPhase phase m)
  | .removePhase phase => (none,removePhase phase m)
  | .scheduleEvent id time group phase => (none,scheduleEvent id time group phase label m)
  | .repeatEvent time => (none,repeatEvent time label m)
  | .executeEvent => executeEvent m
  | .delayEvent id delay => (none,delayEvent id delay m)
  | .delayEvents delay => (none,delayEvents delay m)
  | .delayEventsGroup delay group => (none,delayEventsGroup delay group m)
  | .cancelEvent id => (none,cancelEvent id m)
  | .cancelEventGroup group => (none,cancelEventGroup group m)

end Projectnelth.EventMapModel
