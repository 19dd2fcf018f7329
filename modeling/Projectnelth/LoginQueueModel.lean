import Mathlib
import Projectnelth.KeyedList

/-!
# The login queue

The sessions of the world, one for each account, and the list of those that wait for a place.
Sessions are numbered in the order in which they come, so that an object that is deleted is never
taken for a later one. The mark of a session that it waits, which is read elsewhere, and the times
of the last disconnections are outside: whether an account has left recently comes with the session.
-/

namespace Projectnelth.LoginQueueModel

open KeyedList

structure World where
  m_sessions : List (ℕ×ℕ)
  m_QueuedPlayer : List ℕ
  m_playerLimit : ℕ
  /-- The position that was last sent to each session. -/
  told : ℕ → ℕ
  /-- The calls of `InitializeSession`, in order. -/
  initialized : List ℕ
  /-- The number of the next session. -/
  next : ℕ

namespace World

def GetActiveAndQueuedSessionCount (w : World) : ℕ := w.m_sessions.length

def GetActiveSessionCount (w : World) : ℕ := w.m_sessions.length-w.m_QueuedPlayer.length

def GetQueuePos (w : World) (sess : ℕ) : ℕ :=
  if sess∈w.m_QueuedPlayer then w.m_QueuedPlayer.idxOf sess+1 else 0

def InitializeSession (w : World) (sess : ℕ) : World :=
  { w with initialized := w.initialized++[sess] }

def AddQueuedPlayer (w : World) (sess : ℕ) : World :=
  let queued := { w with m_QueuedPlayer := w.m_QueuedPlayer++[sess] }
  { queued with told := Function.update w.told sess (queued.GetQueuePos sess) }

/-- `SendAuthWaitQue` to the sessions from an iterator on. -/
def sendPositions : List ℕ → ℕ → (ℕ → ℕ) → ℕ → ℕ
  | [],_,told => told
  | sess::rest,position,told => sendPositions rest (position+1) (Function.update told sess position)

/-- Whether the session was found, and the world after `RemoveQueuedPlayer`. -/
def RemoveQueuedPlayer (w : World) (sess : ℕ) : Bool×World :=
  let skipped := w.m_QueuedPlayer.takeWhile (·≠sess)
  let iter := w.m_QueuedPlayer.dropWhile (·≠sess)
  let found := !iter.isEmpty
  let sessions :=
    if !found && w.GetActiveSessionCount≠0 then w.GetActiveSessionCount-1
    else w.GetActiveSessionCount
  match skipped++iter.tail with
  | [] => (found,{ w with m_QueuedPlayer := [] })
  | pop_sess::queue =>
    if w.m_playerLimit=0 ∨ sessions < w.m_playerLimit then
      (found,
        { w.InitializeSession pop_sess with
          m_QueuedPlayer := queue
          told := sendPositions queue 1 w.told })
    else
      (found,
        { w with
          m_QueuedPlayer := pop_sess::queue
          told := sendPositions iter.tail (skipped.length+1) w.told })

/-- `AddSession_` behind the removal of an old session of the account. -/
def enter (w : World) (sess account : ℕ) (decrease_session player recently : Bool) : World :=
  let w := { w with m_sessions := put Prod.fst (account,sess) w.m_sessions }
  let sessions :=
    if decrease_session then w.GetActiveAndQueuedSessionCount-1
    else w.GetActiveAndQueuedSessionCount
  if w.m_playerLimit > 0 && sessions ≥ w.m_playerLimit && player && !recently then
    w.AddQueuedPlayer sess
  else w.InitializeSession sess

/-- `AddSession_`: whether the player of an old session is loading, whether the account is a
player's, and whether it has left recently come with the session. -/
def AddSession_ (w : World) (account : ℕ) (loading player recently : Bool) : World :=
  let sess := w.next
  let w := { w with next := sess+1 }
  match lookup Prod.fst account w.m_sessions with
  | none => w.enter sess account true player recently
  | some old =>
    if loading then w
    else
      let removed := w.RemoveQueuedPlayer old.2
      removed.2.enter sess account (!removed.1) player recently

/-- The part of `UpdateSessions` for a session whose `Update` has failed. -/
def removeInactive (w : World) (account : ℕ) : World :=
  match lookup Prod.fst account w.m_sessions with
  | none => w
  | some old =>
    let removed := ((w.RemoveQueuedPlayer old.2).2.RemoveQueuedPlayer old.2).2
    { removed with m_sessions := remove Prod.fst account removed.m_sessions }

end World

/-- What happens to the sessions. -/
inductive Action
  | addSession (account : ℕ) (loading player recently : Bool)
  | removeInactive (account : ℕ)
  | setPlayerAmountLimit (limit : ℕ)
  | kickAll

def World.step (w : World) : Action → World
  | .addSession account loading player recently => w.AddSession_ account loading player recently
  | .removeInactive account => w.removeInactive account
  | .setPlayerAmountLimit limit => { w with m_playerLimit := limit }
  | .kickAll => { w with m_QueuedPlayer := [] }

/-- A world before the first session. -/
def World.start (limit : ℕ) : World := ⟨[],[],limit,fun _ => 0,[],0⟩

end Projectnelth.LoginQueueModel
