import Mathlib
import Projectnelth.StableMultimap

/-!
# The event processor

Events wait in a multimap by the time they are due at. `Update` takes the due ones out and
executes them, or aborts those that bear the abort mark; `KillAllEvents` marks and aborts what
waits. Executing and aborting are callbacks that may add events, and an execution may also add
its own event again and kill all events. What a callback does is an arbitrary function of the
state with its history. Events have numbers in the order of their creation.
-/

namespace Projectnelth.EventProcessorModel

open StableMultimap

/-- What happened. -/
inductive Entry where
  /-- The event was added with its time. -/
  | added (id time : ℕ)
  /-- The event, due at a time, was executed. -/
  | executed (id time now : ℕ)
  /-- `Abort` was called. -/
  | aborted (id : ℕ)
  /-- The event was deleted. -/
  | destroyed (id : ℕ)
  /-- `KillAllEvents` began. -/
  | killStarted
  deriving DecidableEq,Repr

/-- The fields of the processor, the marks of the events and what happened, the latest first. -/
structure State where
  /-- `m_time`. -/
  time : ℕ
  /-- `m_aborting`. -/
  aborting : Bool
  /-- `m_events`: the times and the events. -/
  events : List (ℕ×ℕ)
  /-- The events whose `to_Abort` is set. -/
  toAbort : List ℕ
  /-- The number of the next event. -/
  created : ℕ
  log : List Entry
  deriving DecidableEq,Repr

/-- The processor as it is constructed. -/
def State.empty : State := ⟨0,false,[],[],0,[]⟩

/-- What an execution does. -/
inductive Action where
  /-- A new event is added. -/
  | add (time : ℕ)
  /-- The event itself is added again. -/
  | readd (time : ℕ)
  /-- All events are killed. -/
  | kill (force : Bool)
  deriving DecidableEq,Repr

/-- The virtual functions of the events. -/
structure Callbacks where
  /-- `Execute`: what it does, and whether it lets the event be deleted. -/
  execute : State → ℕ → List Action×Bool
  /-- `Abort`: the times of the events it adds. -/
  abort : State → ℕ → List ℕ
  isDeletable : State → ℕ → Bool

/-- Something happens. -/
def State.logged (s : State) (e : Entry) : State := {s with log := e::s.log}

def State.addEvent (s : State) (id time : ℕ) : State :=
  {s with events := insert Prod.fst (time,id) s.events,log := .added id time::s.log}

/-- A new event is added. -/
def State.addNew (s : State) (time : ℕ) : State :=
  {s.addEvent s.created time with created := s.created+1}

/-- New events are added. -/
def State.addAll (s : State) : List ℕ → State
  | [] => s
  | t::times => (s.addNew t).addAll times

/-- An element comes into a multimap that is gone through, between what the walk has passed and
what it will still visit: an element with the key of a visited one stands behind it. -/
def insertWalk (x : ℕ×ℕ) (before rest : List (ℕ×ℕ)) : List (ℕ×ℕ)×List (ℕ×ℕ) :=
  match rest with
  | [] => (insert Prod.fst x before,[])
  | y::_ =>
    if y.1 ≤ x.1 then (before,insert Prod.fst x rest) else (insert Prod.fst x before,rest)

/-- The state of a walk through the events. -/
structure Walk where
  /-- The processor, whose events are the passed ones and the others. -/
  state : State
  /-- What lies before the iterator. -/
  before : List (ℕ×ℕ)
  /-- What lies behind it. -/
  rest : List (ℕ×ℕ)

/-- A new event is added during a walk. -/
def Walk.addNew (v : Walk) (time : ℕ) : Walk :=
  let parts := insertWalk (time,v.state.created) v.before v.rest
  ⟨{v.state with
      events := parts.1++parts.2
      created := v.state.created+1
      log := .added v.state.created time::v.state.log},parts.1,parts.2⟩

/-- New events are added during a walk. -/
def Walk.addAll (v : Walk) : List ℕ → Walk
  | [] => v
  | t::times => (v.addNew t).addAll times

variable (cb : Callbacks)

/-- One event is marked and aborted, and deleted where that is allowed. A forced walk leaves
what it deletes in the multimap. -/
def killOne (force : Bool) (s : State) (before : List (ℕ×ℕ)) (x : ℕ×ℕ) (rest : List (ℕ×ℕ)) :
    Walk :=
  let s := ({s with toAbort := x.2::s.toAbort}).logged (.aborted x.2)
  let v := Walk.addAll ⟨s,before++[x],rest⟩ (cb.abort s x.2)
  if force=true then {v with state := v.state.logged (.destroyed x.2)}
  else if cb.isDeletable v.state x.2=true then
    let before := v.before.erase x
    ⟨{v.state.logged (.destroyed x.2) with events := before++v.rest},before,v.rest⟩
  else v

/-- The walk of `KillAllEvents`. The fuel bounds the number of events that are visited. -/
def killLoop (force : Bool) : ℕ → State → List (ℕ×ℕ) → List (ℕ×ℕ) → Option State
  | _,s,before,[] => some {s with events := if force=true then [] else before}
  | 0,_,_,_::_ => none
  | fuel+1,s,before,x::rest =>
    let v := killOne cb force s before x rest
    killLoop force fuel v.state v.before v.rest

def killAllEvents (fuel : ℕ) (force : Bool) (s : State) : Option State :=
  killLoop cb force fuel ({s with aborting := true}.logged .killStarted) [] s.events

/-- What the execution of an event does, one action after the other. -/
def performAll (fuel id : ℕ) : List Action → State → Option State
  | [],s => some s
  | .add t::actions,s => performAll fuel id actions (s.addNew t)
  | .readd t::actions,s => performAll fuel id actions (s.addEvent id t)
  | .kill force::actions,s => (killAllEvents cb fuel force s).bind (performAll fuel id actions)

/-- An event that was taken out of the queue is executed or, with the mark, aborted. -/
def updateStep (fuel : ℕ) (s : State) (x : ℕ×ℕ) : Option State :=
  if x.2∈s.toAbort then
    let s := s.logged (.aborted x.2)
    some ((s.addAll (cb.abort s x.2)).logged (.destroyed x.2))
  else
    let s := s.logged (.executed x.2 x.1 s.time)
    let result := cb.execute s x.2
    (performAll cb fuel x.2 result.1 s).map fun s =>
      if result.2=true then s.logged (.destroyed x.2) else s

/-- The main event loop. The fuel bounds the number of its turns and the kills in them. -/
def updateLoop : ℕ → State → Option State
  | 0,_ => none
  | fuel+1,s =>
    match s.events with
    | [] => some s
    | x::rest =>
      if x.1 ≤ s.time then
        (updateStep cb fuel {s with events := rest} x).bind (updateLoop fuel)
      else some s

/-- What is asked of a processor. -/
inductive Op where
  /-- A new event is added. -/
  | addEvent (time : ℕ)
  | update (diff : ℕ)
  | killAllEvents (force : Bool)
  /-- The mark of a waiting event is set from outside. -/
  | setToAbort (id : ℕ)
  deriving DecidableEq,Repr

/-- What becomes of the processor, nothing where the fuel is short. -/
def perform (fuel : ℕ) (s : State) : Op → Option State
  | .addEvent t => some (s.addNew t)
  | .update diff => updateLoop cb fuel {s with time := (s.time+diff)%2^64}
  | .killAllEvents force => killAllEvents cb fuel force s
  | .setToAbort id =>
    some (if id∈s.events.map Prod.snd then {s with toAbort := id::s.toAbort} else s)

/-- An operation comes to its end in a state: more fuel changes nothing. -/
def Settles (s : State) (op : Op) (s' : State) : Prop :=
  ∃ n₀,∀ n ≥ n₀,perform cb n s op=some s'

end Projectnelth.EventProcessorModel
