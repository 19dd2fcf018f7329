import Mathlib
import Projectnelth.ArraySizes
import Projectnelth.StableMultimap

/-!
# The battleground queue

Groups wait in one list for each bracket and kind of group; `m_QueuedPlayers`
says which group a player is in. The groups are allocated: a list holds
pointers, and what a live pointer points to is in `heap`. An update pass selects
groups into the pools of the two teams and invites them; it may move groups
between the lists of the two teams. An iterator into a list is modelled by the
nodes from it to the end of the list. Battlegrounds, ratings, packets, events
and the average waiting times are outside, and what a pass reads of them is an
input of the pass.
-/

namespace Projectnelth.BattlegroundQueueModel

/-- `Team`, which also numbers the selection pools. -/
inductive Team
  | HORDE
  | ALLIANCE
  deriving DecidableEq, Inhabited

/-- The other team. -/
def Team.other : Team → Team
  | HORDE => ALLIANCE
  | ALLIANCE => HORDE

/-- `BattlegroundQueueGroupTypes`; `BG_QUEUE_PREMADE_ALLIANCE` is
`BG_QUEUE_PREMADE ALLIANCE`. -/
inductive BattlegroundQueueGroupTypes
  | BG_QUEUE_PREMADE (team : Team)
  | BG_QUEUE_NORMAL (team : Team)
  | BG_QUEUE_MIXED
  | BG_QUEUE_RBG
  deriving DecidableEq

open Team BattlegroundQueueGroupTypes

/-- `BattlegroundBracketId`, below `MAX_BATTLEGROUND_BRACKETS`. -/
abbrev BattlegroundBracketId := Fin 16

/-- The index of a list in `m_QueuedGroups`. -/
abbrev Slot := BattlegroundBracketId×BattlegroundQueueGroupTypes

/-- A player's guid. -/
abbrev Guid := ℕ

/-- `GroupQueueInfo*`. -/
abbrev Ptr := ℕ

def BATTLEGROUND_RATED_10_VS_10 : ℕ := 100

def BATTLEGROUND_RB : ℕ := 32

/-- `GroupQueueInfo`, for groups of `AddGroup`. -/
structure GroupQueueInfo where
  /-- The keys of `Players`. -/
  Players : Finset Guid
  Team : Team
  /-- `OTeam == ALLIANCE`; no code sets `OTeam`. -/
  OTeamAlliance : Bool
  BgTypeId : ℕ
  IsRated : Bool
  ArenaType : ℕ
  ArenaTeamIdOrRbgLeaderGuid : ℕ
  JoinTime : UInt32
  RemoveInviteTime : UInt32
  IsInvitedToBGInstanceGUID : UInt32
  ArenaTeamRating : UInt32
  ArenaMatchmakerRating : UInt32
  OpponentsTeamRating : UInt32
  OpponentsMatchmakerRating : UInt32
  ratingRange : UInt32
  ratingRangeIncreaseCounter : UInt32
  deriving Inhabited

structure WarGameGroupQueueInfo where
  TeamA : List Guid
  TeamB : List Guid
  BgTypeId : ℕ
  BracketId : BattlegroundBracketId

structure SelectionPool where
  SelectedGroups : List Ptr
  PlayerCount : ℕ

structure BattlegroundQueue where
  heap : Ptr → Option GroupQueueInfo
  /-- `m_QueuedPlayers`: the player's `GroupInfo`. -/
  m_QueuedPlayers : Guid → Option Ptr
  m_QueuedGroups : Slot → List Ptr
  m_SelectionPools : Team → SelectionPool
  m_QueuedWargameGroups : List WarGameGroupQueueInfo
  m_InvitedWargameGroups : List WarGameGroupQueueInfo

def SelectionPool.Init : SelectionPool := ⟨[],0⟩

/-- A new queue. -/
def BattlegroundQueue.empty : BattlegroundQueue where
  heap := fun _ => none
  m_QueuedPlayers := fun _ => none
  m_QueuedGroups := fun _ => []
  m_SelectionPools := fun _ => SelectionPool.Init
  m_QueuedWargameGroups := []
  m_InvitedWargameGroups := []

namespace BattlegroundQueue

/-- What the pointer points to. -/
def info (q : BattlegroundQueue) (ginfo : Ptr) : GroupQueueInfo := (q.heap ginfo).getD default

/-- Assignments to fields of a group. -/
def modify (q : BattlegroundQueue) (ginfo : Ptr) (f : GroupQueueInfo → GroupQueueInfo) :
    BattlegroundQueue :=
  { q with heap := Function.update q.heap ginfo ((q.heap ginfo).map f) }

/-- A list of `m_QueuedGroups` replaced. -/
def setList (q : BattlegroundQueue) (slot : Slot) (groups : List Ptr) : BattlegroundQueue :=
  { q with m_QueuedGroups := Function.update q.m_QueuedGroups slot groups }

/-- `push_front` on one list, then `erase` of the group's node in another. -/
def move (q : BattlegroundQueue) (ginfo : Ptr) (old new : Slot) : BattlegroundQueue :=
  let pushed := q.setList new (ginfo::q.m_QueuedGroups new)
  pushed.setList old ((pushed.m_QueuedGroups old).erase ginfo)

/-- Whether the group has an invitation, `IsInvitedToBGInstanceGUID != 0`. -/
def invited (q : BattlegroundQueue) (ginfo : Ptr) : Bool :=
  (q.info ginfo).IsInvitedToBGInstanceGUID != 0

/-- `Players.size()`. -/
def size (q : BattlegroundQueue) (ginfo : Ptr) : ℕ := (q.info ginfo).Players.card

end BattlegroundQueue

/-- The loop of `KickGroup`, which looks for the group to kick. -/
def SelectionPool.groupToKick (size : Ptr → ℕ) (wanted : ℕ) : List Ptr → Ptr → Bool → Ptr
  | [],kick,_ => kick
  | ginfo::rest,kick,found =>
    if ((size ginfo : ℤ)-wanted).natAbs ≤ 1 then groupToKick size wanted rest ginfo true
    else if !found && size kick ≤ size ginfo then groupToKick size wanted rest ginfo found
    else groupToKick size wanted rest kick found

def SelectionPool.KickGroup (size : Ptr → ℕ) (pool : SelectionPool) (wanted : ℕ) :
    SelectionPool×Bool :=
  match pool.SelectedGroups with
  | [] => (pool,true)
  | first::_ =>
    if pool.PlayerCount=0 then (pool,true)
    else
      let ginfo := groupToKick size wanted pool.SelectedGroups first false
      (⟨pool.SelectedGroups.erase ginfo,pool.PlayerCount-size ginfo⟩,
        decide (wanted+1 < size ginfo))

def SelectionPool.AddGroup (pool : SelectionPool) (q : BattlegroundQueue) (ginfo : Ptr)
    (desiredCount : ℕ) : SelectionPool×Bool :=
  if !q.invited ginfo && pool.PlayerCount+q.size ginfo ≤ desiredCount then
    (⟨pool.SelectedGroups++[ginfo],pool.PlayerCount+q.size ginfo⟩,true)
  else (pool,decide (pool.PlayerCount < desiredCount))

/-- What `AddGroup` of the queue is called with. -/
structure Join where
  /-- `leader->GetGUID()`. -/
  leader : Guid
  /-- `leader->GetTeam()`. -/
  GetTeam : Team
  /-- The members of `grp`, if there is one. -/
  grp : Option (List Guid)
  BgTypeId : ℕ
  /-- `bracketEntry->GetBracketId()`. -/
  bracketId : BattlegroundBracketId
  ArenaType : ℕ
  isRated : Bool
  isPremade : Bool
  ArenaRating : UInt32
  MatchmakerRating : UInt32
  arenateamid : ℕ
  getMSTime : UInt32
  /-- `BATTLEGROUND_CROSSFACTION_ENABLED`. -/
  crossfaction : Bool
  /-- What the new group's `OTeam` happens to be. -/
  OTeamAlliance : Bool

/-- The players that join. -/
def Join.players (join : Join) : List Guid := join.grp.getD [join.leader]

/-- `index`: the last of the assignments that applies. -/
def Join.index (join : Join) : BattlegroundQueueGroupTypes :=
  if join.crossfaction && join.ArenaType==0 && !join.isRated then BG_QUEUE_MIXED
  else if join.BgTypeId==BATTLEGROUND_RATED_10_VS_10 && join.isRated then BG_QUEUE_RBG
  else if !join.isRated && !join.isPremade then BG_QUEUE_NORMAL join.GetTeam
  else BG_QUEUE_PREMADE join.GetTeam

/-- The new `GroupQueueInfo`. -/
def Join.ginfo (join : Join) : GroupQueueInfo where
  Players := join.players.toFinset
  Team := join.GetTeam
  OTeamAlliance := join.OTeamAlliance
  BgTypeId := join.BgTypeId
  IsRated := join.isRated
  ArenaType := join.ArenaType
  ArenaTeamIdOrRbgLeaderGuid := join.arenateamid
  JoinTime := join.getMSTime
  RemoveInviteTime := 0
  IsInvitedToBGInstanceGUID := 0
  ArenaTeamRating := join.ArenaRating
  ArenaMatchmakerRating := join.MatchmakerRating
  OpponentsTeamRating := 0
  OpponentsMatchmakerRating := 0
  ratingRange := 0
  ratingRangeIncreaseCounter := 0

/-- `AddGroup`; `new` allocates the group at `ginfo`. -/
def AddGroup (q : BattlegroundQueue) (ginfo : Ptr) (join : Join) : BattlegroundQueue :=
  { q with
    heap := Function.update q.heap ginfo (some join.ginfo)
    m_QueuedPlayers := fun guid =>
      if guid∈join.players then some ginfo else q.m_QueuedPlayers guid
    m_QueuedGroups := Function.update q.m_QueuedGroups (join.bracketId,join.index)
      (q.m_QueuedGroups (join.bracketId,join.index)++[ginfo]) }

/-- `IsPlayerIn` with `remove`: the war game without the player. -/
def WarGameGroupQueueInfo.removePlayer (guid : Guid) (wginfo : WarGameGroupQueueInfo) :
    Option WarGameGroupQueueInfo :=
  if guid∈wginfo.TeamA then some { wginfo with TeamA := wginfo.TeamA.erase guid }
  else if guid∈wginfo.TeamB then some { wginfo with TeamB := wginfo.TeamB.erase guid }
  else none

/-- The loop over the invited war games at the start of `RemovePlayer`. -/
def removeFromWarGames (guid : Guid) :
    List WarGameGroupQueueInfo → Option (List WarGameGroupQueueInfo)
  | [] => none
  | wginfo::rest =>
    match wginfo.removePlayer guid with
    | some left => some (if left.TeamA.isEmpty && left.TeamB.isEmpty then rest else left::rest)
    | none => (removeFromWarGames guid rest).map (wginfo::·)

/-- The lists of a bracket in which `RemovePlayer` looks for a group. -/
def GroupQueueInfo.searched (group : GroupQueueInfo) : List BattlegroundQueueGroupTypes :=
  if !group.IsRated || group.ArenaType != 0 then
    [BG_QUEUE_PREMADE ALLIANCE,BG_QUEUE_PREMADE HORDE,BG_QUEUE_NORMAL ALLIANCE,
      BG_QUEUE_NORMAL HORDE,BG_QUEUE_MIXED]
  else [BG_QUEUE_RBG]

/-- `bracket_id` and `index` as the loops of `RemovePlayer` leave them: the
first bracket from the highest one down that has the group, and the last list there. -/
def findGroup (q : BattlegroundQueue) (group : Ptr) : Option Slot :=
  (List.finRange 16).reverse.findSome? fun bracket =>
    (((q.info group).searched.filter fun index =>
      group∈q.m_QueuedGroups (bracket,index)).getLast?).map fun index => (bracket,index)

/-- `RemovePlayer`. The recursion over the rest of a rated group has a fuel. -/
def removePlayer : ℕ → Guid → BattlegroundQueue → BattlegroundQueue
  | 0,_,q => q
  | fuel+1,guid,q =>
    match removeFromWarGames guid q.m_InvitedWargameGroups with
    | some wargames => { q with m_InvitedWargameGroups := wargames }
    | none =>
      match q.m_QueuedPlayers guid with
      | none => q
      | some group =>
        match findGroup q group with
        | none => q
        | some slot =>
          let left := (q.info group).Players.erase guid
          let forgotten :=
            { q.modify group fun ginfo => { ginfo with Players := left } with
              m_QueuedPlayers := Function.update q.m_QueuedPlayers guid none }
          if h : left.Nonempty then
            if !q.invited group && (q.info group).IsRated then
              removePlayer fuel (left.min' h) forgotten
            else forgotten
          else
            -- `erase(group_itr); delete group`
            { forgotten with
              heap := Function.update q.heap group none
              m_QueuedGroups := Function.update q.m_QueuedGroups slot
                ((q.m_QueuedGroups slot).erase group) }

/-- `RemovePlayer`, with a fuel of the number of players of the group. -/
def RemovePlayer (q : BattlegroundQueue) (guid : Guid) : BattlegroundQueue :=
  removePlayer (((q.m_QueuedPlayers guid).elim 0 q.size)+1) guid q

end Projectnelth.BattlegroundQueueModel
