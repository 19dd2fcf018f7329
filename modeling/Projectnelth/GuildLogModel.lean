import Mathlib

/-!
# The logs of a guild

A holder keeps the last events of a guild. The rows of the database have the log GUID as their key;
an event is saved under its own one, whatever row was there before. The events of a log, its bank
tabs and its news differ in what they carry only.
-/

namespace Projectnelth.GuildLogModel

def GUILD_EVENT_LOG_GUID_UNDEFINED : UInt32 := 0xffffffff

structure LogEntry (α : Type) where
  m_guid : UInt32
  /-- What the entry carries. -/
  event : α
  deriving DecidableEq

/-- The rows of a holder in the database. -/
abbrev Rows (α : Type) := UInt32 → Option (LogEntry α)

variable {α : Type}

/-- `SaveToDB`: the row with the GUID of the entry goes, the entry comes. -/
def LogEntry.SaveToDB (entry : LogEntry α) (trans : Rows α) : Rows α :=
  Function.update (Function.update trans entry.m_guid none) entry.m_guid (some entry)

/-- `DELETE FROM … WHERE LogGuid > …`, before the rows are loaded. -/
def deleteExceeding (count : UInt32) (rows : List (LogEntry α)) : List (LogEntry α) :=
  rows.filter fun entry => ¬count < entry.m_guid

structure LogHolder (α : Type) where
  m_log : List (LogEntry α)
  m_maxRecords : UInt32
  m_nextGUID : UInt32

namespace LogHolder

/-- The constructor. -/
def new (maxRecords : UInt32) : LogHolder α := ⟨[],maxRecords,GUILD_EVENT_LOG_GUID_UNDEFINED⟩

def CanInsert (holder : LogHolder α) : Bool :=
  holder.m_log.length < holder.m_maxRecords.toNat

def LoadEvent (holder : LogHolder α) (entry : LogEntry α) : LogHolder α where
  m_log := entry::holder.m_log
  m_maxRecords := holder.m_maxRecords
  m_nextGUID :=
    if holder.m_nextGUID=GUILD_EVENT_LOG_GUID_UNDEFINED then entry.m_guid else holder.m_nextGUID

/-- An entry is loaded where it can be inserted. -/
def loadRow (holder : LogHolder α) (entry : LogEntry α) : LogHolder α :=
  if holder.CanInsert then holder.LoadEvent entry else holder

def AddEvent (holder : LogHolder α) (trans : Rows α) (entry : LogEntry α) :
    LogHolder α×Rows α :=
  let kept :=
    if holder.m_maxRecords.toNat ≤ holder.m_log.length then holder.m_log.tail
    else holder.m_log
  ({holder with m_log := kept++[entry]},entry.SaveToDB trans)

def GetNextGUID (holder : LogHolder α) : UInt32×LogHolder α :=
  let next :=
    if holder.m_nextGUID=GUILD_EVENT_LOG_GUID_UNDEFINED then 0
    else (holder.m_nextGUID+1)%holder.m_maxRecords
  (next,{holder with m_nextGUID := next})

/-- `AddEvent` with `GetNextGUID`, as the guild logs an event. -/
def logEvent (state : LogHolder α×Rows α) (event : α) : LogHolder α×Rows α :=
  let next := state.1.GetNextGUID
  next.2.AddEvent state.2 ⟨next.1,event⟩

end LogHolder

end Projectnelth.GuildLogModel
