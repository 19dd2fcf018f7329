import Mathlib
import Projectnelth.BattlegroundQueueModel

/-!
# An update pass of the battleground queue

`BattlegroundQueueUpdate` first fills battlegrounds with free slots, then
tries to create one: premade against premade, normal, same-faction skirmish and
cross-faction matches for unrated queues, pairs of arena teams or of rated
battleground groups for rated ones.
-/

namespace Projectnelth.BattlegroundQueueModel

open Team BattlegroundQueueGroupTypes BattlegroundQueue

/-- `Battleground`, as the queue reads it. -/
structure Battleground where
  GetInstanceID : UInt32
  GetTypeID : ℕ
  GetBracketId : BattlegroundBracketId
  /-- `GetStatus()`, from `STATUS_NONE`, 0, to `STATUS_WAIT_LEAVE`, 4. -/
  GetStatus : ℕ
  isArena : Bool
  isRated : Bool
  isRatedBattleground : Bool
  GetMinPlayersPerTeam : ℕ
  GetMaxPlayersPerTeam : ℕ
  /-- `GetFreeSlotsForTeam`, when the pass comes to the battleground. -/
  GetFreeSlotsForTeam : Team → ℕ

/-- The readings of the clock in a pass. -/
inductive ClockReading
  | premade
  | range (front : Ptr)
  | discard (front : Ptr)
  | invite (ginfo : Ptr)

/-- What a pass reads of the server. -/
structure World where
  getMSTime : ClockReading → UInt32
  /-- `BATTLEGROUND_CROSSFACTION_ENABLED`. -/
  crossfaction : Bool
  /-- `CONFIG_BATTLEGROUND_INVITATION_TYPE`. -/
  invitationType : ℕ
  /-- `CONFIG_BATTLEGROUND_PREMADE_GROUP_WAIT_FOR_MATCH`. -/
  premadeWait : UInt32
  isTesting : Bool
  isArenaTesting : Bool
  GetMaxRatingDifference : UInt32
  GetRatingDiscardTimer : UInt32
  /-- Whether `FindPlayer` finds the player. -/
  FindPlayer : Guid → Bool
  /-- `GetBGFreeSlotQueueStore(bgTypeId)`. -/
  bgQueues : List Battleground
  /-- `GetBattlegroundTemplate(bgTypeId)`. -/
  bg_template : Option Battleground
  /-- Whether `GetBattlegroundBracketById` finds the bracket. -/
  bracketEntry : Bool
  bg_random_template : Option Battleground
  /-- `CreateNewBattleground` for a premade match. -/
  premadeBattleground : Option Battleground
  /-- `CreateNewBattleground` for an unrated match. -/
  normalBattleground : Option Battleground
  /-- `CreateNewBattleground` for the rated match of the group. -/
  ratedBattleground : Ptr → Option Battleground
  /-- What `back()` returns on an empty pool. -/
  emptyBack : Ptr

def STATUS_WAIT_QUEUE : ℕ := 1

def STATUS_WAIT_LEAVE : ℕ := 4

def INVITE_ACCEPT_WAIT_TIME : UInt32 := 90000

/-- `InviteGroupToBG`; `side` is `ALLIANCE` or `HORDE` in every call, neither of which is 0. -/
def InviteGroupToBG (world : World) (q : BattlegroundQueue) (ginfo : Ptr) (bg : Battleground)
    (side : Team) : BattlegroundQueue :=
  let sided := q.modify ginfo fun g => { g with Team := side }
  if sided.invited ginfo then sided
  else
    let accepttime :=
      if !bg.isArena && bg.isRated then INVITE_ACCEPT_WAIT_TIME*3 else INVITE_ACCEPT_WAIT_TIME
    sided.modify ginfo fun g =>
      { g with
        IsInvitedToBGInstanceGUID := bg.GetInstanceID
        RemoveInviteTime := world.getMSTime (ClockReading.invite ginfo)+accepttime }

/-- The groups of a pool, invited each for its own team. -/
def inviteSelection (world : World) (bg : Battleground) :
    List Ptr → BattlegroundQueue → BattlegroundQueue
  | [],q => q
  | ginfo::rest,q =>
    inviteSelection world bg rest (InviteGroupToBG world q ginfo bg (q.info ginfo).Team)

/-- The pools of both teams, invited. -/
def invitePools (world : World) (bg : Battleground) (q : BattlegroundQueue) : BattlegroundQueue :=
  let ali := inviteSelection world bg (q.m_SelectionPools ALLIANCE).SelectedGroups q
  inviteSelection world bg (ali.m_SelectionPools HORDE).SelectedGroups ali

/-- Both selection pools. -/
abbrev Pools := Team → SelectionPool

/-- `m_SelectionPools[team].AddGroup`. -/
def addTo (q : BattlegroundQueue) (pools : Pools) (team : Team) (ginfo : Ptr) (desiredCount : ℕ) :
    Pools×Bool :=
  let added := (pools team).AddGroup q ginfo desiredCount
  (Function.update pools team added.1,added.2)

/-- `m_SelectionPools[team].KickGroup`. -/
def kickFrom (q : BattlegroundQueue) (pools : Pools) (team : Team) (size : ℕ) : Pools×Bool :=
  let kicked := (pools team).KickGroup q.size size
  (Function.update pools team kicked.1,kicked.2)

/-- The pools and, for each team, the iterator into its normal queue. -/
structure Filling where
  /-- `m_SelectionPools`. -/
  pools : Pools
  /-- `Ali_itr` and `Horde_itr`. -/
  itr : Team → List Ptr

/-- `for (; index < count && AddGroup(*itr, desired); index++) ++itr` over the rest of a queue. -/
def fillFrom (q : BattlegroundQueue) (team : Team) (desired : ℕ) :
    List Ptr → Pools → Pools×List Ptr
  | [],pools => (pools,[])
  | ginfo::rest,pools =>
    match addTo q pools team ginfo desired with
    | (pools,true) => fillFrom q team desired rest pools
    | (pools,false) => (pools,ginfo::rest)

/-- `fillFrom` on the state of `FillPlayersToBG`. -/
def Filling.fill (q : BattlegroundQueue) (team : Team) (desired : ℕ) (state : Filling) :
    Filling :=
  let filled := fillFrom q team desired (state.itr team) state.pools
  ⟨filled.1,Function.update state.itr team filled.2⟩

/-- `diffAli` and `diffHorde`. -/
def Filling.diff (free : Team → ℕ) (state : Filling) (team : Team) : ℤ :=
  (free team : ℤ)-(state.pools team).PlayerCount

/-- One branch of the balancing loop: a group of the team with fewer free slots is kicked,
and one of the other team if that emptied the pool. The flag is off at the `break`. -/
def Filling.kick (q : BattlegroundQueue) (free : Team → ℕ) (team : Team) (state : Filling) :
    Filling×Bool :=
  let diffOther := state.diff free team.other
  let surplus := (diffOther-state.diff free team).toNat
  let kicked := kickFrom q state.pools team surplus
  let refilled : Filling :=
    if kicked.2 then Filling.fill q team ((free team : ℤ)-diffOther).toNat ⟨kicked.1,state.itr⟩
    else ⟨kicked.1,state.itr⟩
  if (refilled.pools team).PlayerCount=0 then
    if (free team : ℤ) ≤ diffOther+1 then (refilled,false)
    else (⟨(kickFrom q refilled.pools team.other surplus).1,refilled.itr⟩,true)
  else (refilled,true)

/-- The balancing loop of `FillPlayersToBG`. Each round kicks a group, and adds only
groups that the iterators pass, which bounds the rounds. -/
def Filling.balance (q : BattlegroundQueue) (free : Team → ℕ) : ℕ → Filling → Filling
  | 0,state => state
  | fuel+1,state =>
    if 1 < (state.diff free ALLIANCE-state.diff free HORDE).natAbs &&
        (0 < (state.pools HORDE).PlayerCount || 0 < (state.pools ALLIANCE).PlayerCount) then
      let team := if state.diff free ALLIANCE < state.diff free HORDE then ALLIANCE else HORDE
      match state.kick q free team with
      | (next,true) => balance q free fuel next
      | (next,false) => next
    else state

/-- The groups of a bracket by size, largest first: a `QueuedGroupMap` read backwards. -/
def bySize (q : BattlegroundQueue) (groups : List Ptr) : List Ptr :=
  (StableMultimap.insertAll q.size groups []).reverse

/-- The loop of `PreAddPlayers`. -/
def preAdd (q : BattlegroundQueue) (MaxInTeam : ℕ) : List Ptr → ℤ → Pools → ℤ×Pools
  | [],LeftToAdd,pools => (LeftToAdd,pools)
  | ginfo::rest,LeftToAdd,pools =>
    if (q.size ginfo : ℤ) ≤ LeftToAdd then
      let team := if (q.info ginfo).OTeamAlliance then ALLIANCE else HORDE
      let added := addTo q pools team ginfo MaxInTeam
      preAdd q MaxInTeam rest (if added.2 then LeftToAdd-q.size ginfo else LeftToAdd) added.1
    else preAdd q MaxInTeam rest LeftToAdd pools

def PreAddPlayers (q : BattlegroundQueue) (groups : List Ptr) (MaxAdd : ℤ) (MaxInTeam : ℕ)
    (pools : Pools) : ℤ×Pools :=
  preAdd q MaxInTeam (bySize q groups) MaxAdd pools

/-- The second loop of `FillXPlayersToBG`: a group goes to the team with more free slots. -/
def fillMixed (free : Team → ℕ) : List Ptr → ℤ → ℤ → BattlegroundQueue → BattlegroundQueue
  | [],_,_,q => q
  | ginfo::rest,valiFree,vhordeFree,q =>
    if q.invited ginfo || ginfo∈(q.m_SelectionPools ALLIANCE).SelectedGroups ||
        ginfo∈(q.m_SelectionPools HORDE).SelectedGroups ||
        (valiFree==0 && vhordeFree==0) then fillMixed free rest valiFree vhordeFree q
    else
      let sided :=
        if 0 < (valiFree-vhordeFree).natAbs then
          q.modify ginfo fun g =>
            { g with Team := if valiFree < vhordeFree then HORDE else ALLIANCE }
        else q
      let team := (sided.info ginfo).Team
      let added := addTo sided sided.m_SelectionPools team ginfo (free team)
      let next := { sided with m_SelectionPools := added.1 }
      if added.2 then
        if team=ALLIANCE then fillMixed free rest (valiFree-q.size ginfo) vhordeFree next
        else fillMixed free rest valiFree (vhordeFree-q.size ginfo) next
      else fillMixed free rest valiFree vhordeFree next

def FillXPlayersToBG (world : World) (bracket_id : BattlegroundBracketId) (bg : Battleground)
    (start : Bool) (minPlayers maxPlayers : ℕ) (q : BattlegroundQueue) : BattlegroundQueue×Bool :=
  let mixed := q.m_QueuedGroups (bracket_id,BG_QUEUE_MIXED)
  let waiting := mixed.filter fun ginfo => !q.invited ginfo
  let queuedPeople := (waiting.map q.size).sum%256
  if world.crossfaction && (world.isTesting || minPlayers*2 ≤ queuedPeople || !start) then
    let free : Team → ℕ := fun team => if start then maxPlayers else bg.GetFreeSlotsForTeam team
    let pools : Pools := fun _ => SelectionPool.Init
    if start then
      let alliance := waiting.filter fun ginfo => (q.info ginfo).OTeamAlliance
      let horde := waiting.filter fun ginfo => !(q.info ginfo).OTeamAlliance
      let queued : List Ptr → ℕ := fun groups => (groups.map q.size).sum
      let smallest :=
        min (min (free ALLIANCE) (queued alliance)) (min (free HORDE) (queued horde))
      let ali := PreAddPlayers q alliance smallest (free ALLIANCE) pools
      let both := PreAddPlayers q horde smallest (free HORDE) ali.2
      (fillMixed free (bySize q mixed) (free ALLIANCE-ali.1) (free HORDE-both.1)
        { q with m_SelectionPools := both.2 },true)
    else
      (fillMixed free (bySize q mixed) (free ALLIANCE) (free HORDE)
        { q with m_SelectionPools := pools },true)
  else (q,false)

def FillPlayersToBG (world : World) (bg : Battleground) (bracket_id : BattlegroundBracketId)
    (q : BattlegroundQueue) : BattlegroundQueue :=
  let mixed := if bg.isArena then (q,false) else FillXPlayersToBG world bracket_id bg false 0 0 q
  if mixed.2 then mixed.1
  else
    let q := mixed.1
    let free := bg.GetFreeSlotsForTeam
    let itr : Team → List Ptr := fun team => q.m_QueuedGroups (bracket_id,BG_QUEUE_NORMAL team)
    let filled :=
      Filling.fill q HORDE (free HORDE)
        (Filling.fill q ALLIANCE (free ALLIANCE) ⟨q.m_SelectionPools,itr⟩)
    if world.invitationType=0 then { q with m_SelectionPools := filled.pools }
    else
      let rounds :=
        (filled.pools ALLIANCE).SelectedGroups.length+(filled.pools HORDE).SelectedGroups.length+
          2*((filled.itr ALLIANCE).length+(filled.itr HORDE).length)
      { q with m_SelectionPools := (Filling.balance q free (rounds+1) filled).pools }

/-- The loop over `bgQueues`. -/
def fillFreeSlots (world : World) (bgTypeId : ℕ) (bracket_id : BattlegroundBracketId) :
    List Battleground → BattlegroundQueue → BattlegroundQueue
  | [],q => q
  | bg::rest,q =>
    if !bg.isRated && bg.GetTypeID==bgTypeId && bg.GetBracketId==bracket_id &&
        STATUS_WAIT_QUEUE < bg.GetStatus && bg.GetStatus < STATUS_WAIT_LEAVE then
      let filled :=
        FillPlayersToBG world bg bracket_id { q with m_SelectionPools := fun _ => SelectionPool.Init }
      fillFreeSlots world bgTypeId bracket_id rest (invitePools world bg filled)
    else fillFreeSlots world bgTypeId bracket_id rest q

/-- The loops of `CheckPremadeMatch` and `CheckSkirmishForSameFaction` that add groups
without an invitation until `AddGroup` refuses one. -/
def addWaiting (q : BattlegroundQueue) (team : Team) (desired : ℕ) : List Ptr → Pools → Pools
  | [],pools => pools
  | ginfo::rest,pools =>
    if q.invited ginfo then addWaiting q team desired rest pools
    else
      match addTo q pools team ginfo desired with
      | (pools,true) => addWaiting q team desired rest pools
      | (pools,false) => pools

/-- The end of `CheckPremadeMatch` for one team: the first premade group moves to the normal queue
if it waited long enough or lost players. -/
def premadeToNormal (world : World) (bracket_id : BattlegroundBracketId) (MinPlayersPerTeam : ℕ)
    (team : Team) (q : BattlegroundQueue) : BattlegroundQueue :=
  match q.m_QueuedGroups (bracket_id,BG_QUEUE_PREMADE team) with
  | [] => q
  | ginfo::_ =>
    if !q.invited ginfo &&
        ((q.info ginfo).JoinTime < world.getMSTime ClockReading.premade-world.premadeWait ||
          q.size ginfo < MinPlayersPerTeam) then
      q.move ginfo (bracket_id,BG_QUEUE_PREMADE team) (bracket_id,BG_QUEUE_NORMAL team)
    else q

def CheckPremadeMatch (world : World) (bracket_id : BattlegroundBracketId)
    (MinPlayersPerTeam MaxPlayersPerTeam : ℕ) (q : BattlegroundQueue) : BattlegroundQueue×Bool :=
  let premade : Team → Option Ptr := fun team =>
    (q.m_QueuedGroups (bracket_id,BG_QUEUE_PREMADE team)).find? fun ginfo => !q.invited ginfo
  match premade ALLIANCE,premade HORDE with
  | some ali_group,some horde_group =>
    let ali := (addTo q q.m_SelectionPools ALLIANCE ali_group MaxPlayersPerTeam).1
    let both := (addTo q ali HORDE horde_group MaxPlayersPerTeam).1
    let maxPlayers := min (both ALLIANCE).PlayerCount (both HORDE).PlayerCount
    let fill : Team → Pools → Pools := fun team =>
      addWaiting q team maxPlayers (q.m_QueuedGroups (bracket_id,BG_QUEUE_NORMAL team))
    ({ q with m_SelectionPools := fill HORDE (fill ALLIANCE both) },true)
  | _,_ =>
    (premadeToNormal world bracket_id MinPlayersPerTeam HORDE
      (premadeToNormal world bracket_id MinPlayersPerTeam ALLIANCE q),false)

/-- The first loop of `CheckNormalMatch`, with the iterator where it breaks. -/
def selectMin (q : BattlegroundQueue) (team : Team) (minPlayers maxPlayers : ℕ) :
    List Ptr → Pools → Pools×List Ptr
  | [],pools => (pools,[])
  | ginfo::rest,pools =>
    if q.invited ginfo then selectMin q team minPlayers maxPlayers rest pools
    else
      let added := (addTo q pools team ginfo maxPlayers).1
      if minPlayers ≤ (added team).PlayerCount then (added,ginfo::rest)
      else selectMin q team minPlayers maxPlayers rest added

def CheckNormalMatch (world : World) (bracket_id : BattlegroundBracketId)
    (minPlayers maxPlayers : ℕ) (q : BattlegroundQueue) : BattlegroundQueue×Bool :=
  let normal : Team → List Ptr := fun team => q.m_QueuedGroups (bracket_id,BG_QUEUE_NORMAL team)
  let ali := selectMin q ALLIANCE minPlayers maxPlayers (normal ALLIANCE) q.m_SelectionPools
  let both := selectMin q HORDE minPlayers maxPlayers (normal HORDE) ali.1
  let count : Pools → Team → ℕ := fun pools team => (pools team).PlayerCount
  let enough : Pools → Bool := fun pools =>
    minPlayers ≤ count pools ALLIANCE && minPlayers ≤ count pools HORDE
  let verdict : Pools → Bool := fun pools =>
    (world.isTesting && (count pools ALLIANCE != 0 || count pools HORDE != 0)) || enough pools
  if world.invitationType != 0 && enough both.1 then
    let j := if count both.1 HORDE < count both.1 ALLIANCE then HORDE else ALLIANCE
    let itr_team := if j=HORDE then both.2 else ali.2
    let more := addWaiting q j (count both.1 j.other) itr_team.tail both.1
    if 2 < ((count more HORDE : ℤ)-count more ALLIANCE).natAbs then
      ({ q with m_SelectionPools := more },false)
    else ({ q with m_SelectionPools := more },verdict more)
  else ({ q with m_SelectionPools := both.1 },verdict both.1)

/-- The nodes behind the group's node. -/
def nodesAfter (ginfo : Ptr) (groups : List Ptr) : List Ptr :=
  (groups.dropWhile fun other => other != ginfo).tail

/-- `erase` of the first node with the group `other` behind the node of `ginfo`. -/
def eraseAfter (ginfo other : Ptr) : List Ptr → List Ptr
  | [] => []
  | first::rest =>
    if first=ginfo then first::rest.erase other else first::eraseAfter ginfo other rest

/-- The loop of `CheckSkirmishForSameFaction` that changes the team of the selected groups. -/
def changeTeam (bracket_id : BattlegroundBracketId) (teamIndex : Team) (ginfo : Ptr) :
    List Ptr → BattlegroundQueue → BattlegroundQueue
  | [],q => q
  | group::rest,q =>
    let sided := q.modify group fun g => { g with Team := teamIndex.other }
    let other := (bracket_id,BG_QUEUE_NORMAL teamIndex.other)
    let own := (bracket_id,BG_QUEUE_NORMAL teamIndex)
    let pushed := sided.setList other (group::sided.m_QueuedGroups other)
    changeTeam bracket_id teamIndex ginfo rest
      (pushed.setList own (eraseAfter ginfo group (pushed.m_QueuedGroups own)))

def CheckSkirmishForSameFaction (world : World) (bracket_id : BattlegroundBracketId)
    (minPlayersPerTeam : ℕ) (q : BattlegroundQueue) : BattlegroundQueue×Bool :=
  let count : Team → ℕ := fun team => (q.m_SelectionPools team).PlayerCount
  if count ALLIANCE < minPlayersPerTeam && count HORDE < minPlayersPerTeam then (q,false)
  else
    let teamIndex := if count HORDE=minPlayersPerTeam then HORDE else ALLIANCE
    let cleared : Pools := Function.update q.m_SelectionPools teamIndex.other SelectionPool.Init
    let ginfo := (cleared teamIndex).SelectedGroups.getLast?.getD world.emptyBack
    let own := q.m_QueuedGroups (bracket_id,BG_QUEUE_NORMAL teamIndex)
    if ginfo∈own then
      let pools := addWaiting q teamIndex.other minPlayersPerTeam (nodesAfter ginfo own) cleared
      let selected : BattlegroundQueue := { q with m_SelectionPools := pools }
      if (pools teamIndex.other).PlayerCount=minPlayersPerTeam then
        (changeTeam bracket_id teamIndex ginfo (pools teamIndex.other).SelectedGroups selected,true)
      else (selected,false)
    else ({ q with m_SelectionPools := cleared },false)

/-- `CheckCrossFactionMatch`; its limits are `uint8`. -/
def CheckCrossFactionMatch (world : World) (bracket_id : BattlegroundBracketId) (bg : Battleground)
    (minPlayers maxPlayers : ℕ) (q : BattlegroundQueue) : BattlegroundQueue×Bool :=
  if !world.crossfaction || bg.isArena then (q,false)
  else
    let minPlayers := minPlayers%256
    let filled := (FillXPlayersToBG world bracket_id bg true minPlayers (maxPlayers%256) q).1
    let ali := (filled.m_SelectionPools ALLIANCE).PlayerCount
    let horde := (filled.m_SelectionPools HORDE).PlayerCount
    (filled,(world.isTesting && (ali != 0 || horde != 0)) ||
      (minPlayers ≤ ali && minPlayers ≤ horde))

def getMSTimeDiff (oldMSTime newMSTime : UInt32) : UInt32 :=
  if newMSTime < oldMSTime then 0xFFFFFFFF-oldMSTime+newMSTime else newMSTime-oldMSTime

/-- `IncreaseTeamMMrRange`, where the group has waited long enough for it. -/
def increaseRange (world : World) (q : BattlegroundQueue) (front1 : Ptr) : BattlegroundQueue :=
  if 30*1000*((q.info front1).ratingRangeIncreaseCounter+1)<
      getMSTimeDiff (q.info front1).JoinTime (world.getMSTime (ClockReading.range front1)) then
    q.modify front1 fun g =>
      { g with
        ratingRange := if 0 < g.ratingRangeIncreaseCounter then g.ratingRange+100 else g.ratingRange
        ratingRangeIncreaseCounter := g.ratingRangeIncreaseCounter+1 }
  else q

def arenaMinRating (world : World) (front1 : GroupQueueInfo) : UInt32 :=
  let arenaRating := front1.ArenaMatchmakerRating
  let least :=
    if arenaRating ≤ world.GetMaxRatingDifference then 0
    else arenaRating-world.GetMaxRatingDifference
  if (least-front1.ratingRange).toInt32 < 0 then 0 else least-front1.ratingRange

def arenaMaxRating (world : World) (front1 : GroupQueueInfo) : UInt32 :=
  let most := front1.ArenaMatchmakerRating+world.GetMaxRatingDifference+front1.ratingRange
  if 4000 < most.toInt32 then 4000 else most

/-- The condition on an opponent of `front1` in a rated arena. -/
def arenaOpponent (world : World) (q : BattlegroundQueue) (front1 other : Ptr) : Bool :=
  let discardTime :=
    world.getMSTime (ClockReading.discard front1)-world.GetRatingDiscardTimer
  let rating := (q.info other).ArenaMatchmakerRating
  !q.invited other &&
    ((arenaMinRating world (q.info front1) ≤ rating &&
      rating ≤ arenaMaxRating world (q.info front1)) || (q.info other).JoinTime < discardTime) &&
    (q.info front1).ArenaTeamIdOrRbgLeaderGuid != (q.info other).ArenaTeamIdOrRbgLeaderGuid

/-- The ratings that the opponents keep of each other. -/
def setOpponents (q : BattlegroundQueue) (aTeam hTeam : Ptr) : BattlegroundQueue :=
  let ali := q.info aTeam
  let horde := q.info hTeam
  (q.modify aTeam fun g =>
      { g with
        OpponentsTeamRating := horde.ArenaTeamRating
        OpponentsMatchmakerRating := horde.ArenaMatchmakerRating }).modify hTeam fun g =>
    { g with
      OpponentsTeamRating := ali.ArenaTeamRating
      OpponentsMatchmakerRating := ali.ArenaMatchmakerRating }

/-- The moves between the premade lists of the teams, which the groups' invitations follow. -/
def changeLists (bracket_id : BattlegroundBracketId) (aTeam hTeam : Ptr) (q : BattlegroundQueue) :
    BattlegroundQueue :=
  let ali := (bracket_id,BG_QUEUE_PREMADE ALLIANCE)
  let horde := (bracket_id,BG_QUEUE_PREMADE HORDE)
  let moved := if (q.info aTeam).Team=ALLIANCE then q else q.move aTeam horde ali
  if (moved.info hTeam).Team=HORDE then moved else moved.move hTeam ali horde

/-- The loop over the premade list of one team in a rated arena. The flag is off at the `return`.
Behind a match the iterator goes on with the nodes that the moves have left in the list. -/
def pairArena (world : World) (bracket_id : BattlegroundBracketId) (queueGroupType : Team) :
    List Ptr → BattlegroundQueue → BattlegroundQueue×Bool
  | [],q => (q,true)
  | front1::citr,q =>
    if q.invited front1 then pairArena world bracket_id queueGroupType citr q
    else
      let q := increaseRange world q front1
      let opponent : Team → Option Ptr := fun team =>
        (q.m_QueuedGroups (bracket_id,BG_QUEUE_PREMADE team)).find? (arenaOpponent world q front1)
      match (opponent ALLIANCE).or (opponent HORDE) with
      | none => pairArena world bracket_id queueGroupType citr q
      | some hTeam =>
        match world.ratedBattleground front1 with
        | none => (q,false)
        | some arena =>
          let moved := changeLists bracket_id front1 hTeam (setOpponents q front1 hTeam)
          let started :=
            InviteGroupToBG world (InviteGroupToBG world moved front1 arena ALLIANCE) hTeam arena
              HORDE
          let next := if citr.head?=some hTeam then citr.tail else citr
          pairArena world bracket_id queueGroupType
            (next.filter fun ginfo =>
              ginfo∈started.m_QueuedGroups (bracket_id,BG_QUEUE_PREMADE queueGroupType)) started
termination_by citr => citr.length
decreasing_by
  all_goals simp only [List.length_cons]
  · omega
  · omega
  refine Nat.lt_succ_of_le ((List.length_filter_le _ _).trans ?_)
  split
  · rw [List.length_tail]; omega
  · exact le_rfl

def CanJoinBattleground (world : World) (q : BattlegroundQueue) (ginfo : Ptr) (bg : Battleground) :
    Bool :=
  world.isTesting ||
    (decide (∀ guid∈(q.info ginfo).Players,world.FindPlayer guid) &&
      !(bg.isRatedBattleground && q.size ginfo != bg.GetMinPlayersPerTeam))

/-- The condition on an opponent of `front1` in a rated battleground. -/
def rbgOpponent (world : World) (bg_template : Battleground) (q : BattlegroundQueue)
    (front1 other : Ptr) : Bool :=
  let rating := (q.info other).ArenaMatchmakerRating
  !q.invited other && arenaMinRating world (q.info front1) ≤ rating &&
    rating ≤ arenaMaxRating world (q.info front1) && CanJoinBattleground world q other bg_template &&
    (q.info front1).ArenaTeamIdOrRbgLeaderGuid != (q.info other).ArenaTeamIdOrRbgLeaderGuid

/-- The loop over the rated battleground groups. -/
def pairRbg (world : World) (bracket_id : BattlegroundBracketId) (bg_template : Battleground) :
    List Ptr → BattlegroundQueue → BattlegroundQueue
  | [],q => q
  | front1::citr,q =>
    if q.invited front1 then pairRbg world bracket_id bg_template citr q
    else
      let q := increaseRange world q front1
      match (q.m_QueuedGroups (bracket_id,BG_QUEUE_RBG)).find?
          (rbgOpponent world bg_template q front1) with
      | none => pairRbg world bracket_id bg_template citr q
      | some hTeam =>
        match world.ratedBattleground front1 with
        | none => q
        | some arena =>
          let rated := setOpponents q front1 hTeam
          let teamA :=
            if !bg_template.isArena && (rated.info front1).Team != (rated.info hTeam).Team &&
                (rated.info front1).Team != ALLIANCE then HORDE else ALLIANCE
          pairRbg world bracket_id bg_template citr
            (InviteGroupToBG world (InviteGroupToBG world rated front1 arena teamA) hTeam arena
              teamA.other)

/-- The unrated end of an update: a match, if one of the checks finds it. -/
def checkMatch (world : World) (bracket_id : BattlegroundBracketId) (bg_template : Battleground)
    (MinPlayersPerTeam MaxPlayersPerTeam : ℕ) (q : BattlegroundQueue) : BattlegroundQueue :=
  let normal := CheckNormalMatch world bracket_id MinPlayersPerTeam MaxPlayersPerTeam q
  let skirmish :=
    if !normal.2 && bg_template.isArena then
      CheckSkirmishForSameFaction world bracket_id MinPlayersPerTeam normal.1
    else normal
  let cross :=
    if skirmish.2 then skirmish
    else
      CheckCrossFactionMatch world bracket_id bg_template MinPlayersPerTeam MaxPlayersPerTeam
        skirmish.1
  if cross.2 then
    match world.normalBattleground with
    | none => cross.1
    | some bg2 => invitePools world bg2 cross.1
  else cross.1

/-- The premade part of an update; the flag is off at the `return`. -/
def checkPremade (world : World) (bracket_id : BattlegroundBracketId)
    (MinPlayersPerTeam MaxPlayersPerTeam : ℕ) (q : BattlegroundQueue) : BattlegroundQueue×Bool :=
  match CheckPremadeMatch world bracket_id MinPlayersPerTeam MaxPlayersPerTeam q with
  | (q,false) => (q,true)
  | (q,true) =>
    match world.premadeBattleground with
    | none => (q,false)
    | some bg2 =>
      ({ invitePools world bg2 q with m_SelectionPools := fun _ => SelectionPool.Init },true)

/-- `MinPlayersPerTeam` and `MaxPlayersPerTeam`; `none` without a random template. -/
def teamLimits (world : World) (bgTypeId arenaType : ℕ) (bg_template : Battleground) :
    Option (ℕ×ℕ) :=
  if bg_template.isArena then some (if world.isArenaTesting then 1 else arenaType,arenaType)
  else if bgTypeId=BATTLEGROUND_RB then
    world.bg_random_template.map fun bg => (bg.GetMinPlayersPerTeam,bg.GetMaxPlayersPerTeam)
  else
    some (if world.isTesting then 1 else bg_template.GetMinPlayersPerTeam,
      bg_template.GetMaxPlayersPerTeam)

def BattlegroundWarGameQueueUpdate (world : World) (bgTypeId : ℕ)
    (bracket_id : BattlegroundBracketId) (q : BattlegroundQueue) : BattlegroundQueue :=
  if world.bg_template.isNone || !world.bracketEntry then q
  else
    let starts : WarGameGroupQueueInfo → Bool := fun wginfo =>
      wginfo.BgTypeId==bgTypeId && wginfo.BracketId==bracket_id
    { q with
      m_InvitedWargameGroups := q.m_InvitedWargameGroups++q.m_QueuedWargameGroups.filter starts
      m_QueuedWargameGroups := q.m_QueuedWargameGroups.filter fun wginfo => !starts wginfo }

/-- The arguments of `BattlegroundQueueUpdate`. -/
structure UpdateArgs where
  bgTypeId : ℕ
  bracket_id : BattlegroundBracketId
  arenaType : ℕ
  isRated : Bool
  arenaRating : UInt32

/-- An update once the template, the bracket and the limits are known. -/
def updateMatches (world : World) (args : UpdateArgs) (bg_template : Battleground)
    (MinPlayersPerTeam MaxPlayersPerTeam : ℕ) (q : BattlegroundQueue) : BattlegroundQueue :=
  let cleared := { q with m_SelectionPools := fun _ => SelectionPool.Init }
  if !args.isRated then
    let premade :=
      if bg_template.isArena then (cleared,true)
      else checkPremade world args.bracket_id MinPlayersPerTeam MaxPlayersPerTeam cleared
    if premade.2 then
      checkMatch world args.bracket_id bg_template MinPlayersPerTeam MaxPlayersPerTeam premade.1
    else premade.1
  else if bg_template.isArena then
    if args.arenaRating=0 then
      let ali :=
        pairArena world args.bracket_id ALLIANCE
          (cleared.m_QueuedGroups (args.bracket_id,BG_QUEUE_PREMADE ALLIANCE)) cleared
      if ali.2 then
        (pairArena world args.bracket_id HORDE
          (ali.1.m_QueuedGroups (args.bracket_id,BG_QUEUE_PREMADE HORDE)) ali.1).1
      else ali.1
    else cleared
  else if bg_template.isRatedBattleground then
    pairRbg world args.bracket_id bg_template
      (cleared.m_QueuedGroups (args.bracket_id,BG_QUEUE_RBG)) cleared
  else cleared

def BattlegroundQueueUpdate (world : World) (args : UpdateArgs) (q : BattlegroundQueue) :
    BattlegroundQueue :=
  if args.arenaType=6 then BattlegroundWarGameQueueUpdate world args.bgTypeId args.bracket_id q
  else
    let waiting : BattlegroundQueueGroupTypes → Bool := fun index =>
      !(q.m_QueuedGroups (args.bracket_id,index)).isEmpty
    if waiting (BG_QUEUE_PREMADE ALLIANCE) || waiting (BG_QUEUE_PREMADE HORDE) ||
        waiting (BG_QUEUE_NORMAL ALLIANCE) || waiting (BG_QUEUE_NORMAL HORDE) ||
        waiting BG_QUEUE_RBG || waiting BG_QUEUE_MIXED then
      let filled := fillFreeSlots world args.bgTypeId args.bracket_id world.bgQueues q
      match world.bg_template with
      | none => filled
      | some bg_template =>
        if world.bracketEntry then
          match teamLimits world args.bgTypeId args.arenaType bg_template with
          | none => filled
          | some limits => updateMatches world args bg_template limits.1 limits.2 filled
        else filled
    else q

end Projectnelth.BattlegroundQueueModel
