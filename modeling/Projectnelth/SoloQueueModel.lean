import Mathlib

/-!
# Solo queue

Four multimaps, from MMR to player, and one map from guid hold pointers to the
same `SoloQueueInfo` objects. The objects live on a heap and are deleted by the
queue; a use of a deleted object gives `none`. A multimap is the list of its
values in iteration order, since no operation here looks at a key. What the
queue asks of the world (configuration, players, clock readings) is a
parameter; messages, packets and the battleground queue are left out except
for the members of each group that is handed over.
-/

namespace Projectnelth.SoloQueueModel

/-- Player guids. -/
abbrev Guid := ℕ

/-- Addresses of `SoloQueueInfo` objects. -/
abbrev Ptr := ℕ

structure SoloQueueInfo where
  playerGuid : Guid
  /-- `rating`, of the solo team. -/
  rating : UInt32
  /-- `ArenaMatchmakerRating`, the player's MMR. -/
  ArenaMatchmakerRating : UInt32
  teamId : UInt32
  ratingRange : UInt32
  ratingRangeIncreaseCounter : UInt32
  lastMmrUpdate : UInt32
  /-- `team`, `ALLIANCE` or `HORDE`. -/
  team : UInt32
  deriving DecidableEq

/-- What `Update` reads of a player in the world. -/
structure Player where
  /-- `getClass()`. -/
  playerClass : UInt8
  /-- `GetPrimaryTalentTree(GetActiveSpec())`. -/
  talentTree : UInt32

/-- What `Update` reads outside of the queue. -/
structure World where
  /-- `GetMaxRatingDifference()`. -/
  maxRatingDifference : UInt32
  /-- `CONFIG_SOLO_QUEUE_DPS_RESTRICTION`. -/
  dpsRestriction : Bool
  /-- `ObjectAccessor::FindPlayer`. -/
  FindPlayer : Guid → Option Player
  /-- Whether `GetBattlegroundTemplate(BATTLEGROUND_AA)` gives a template. -/
  arenaTemplate : Bool
  /-- Whether `GetBattlegroundBracketByLevel` gives an entry for level 85. -/
  bracketEntry : Bool
  /-- `getMSTime()` at the start of the update. -/
  now : UInt32
  /-- `getMSTime()` where the update asks for the time of a player's last range
  increase and where it sets it. -/
  mmrTimes : Guid → UInt32×UInt32

structure SoloQueue where
  /-- The objects that are not deleted. -/
  heap : Ptr → Option SoloQueueInfo
  queuedHealers : List Ptr
  queuedMelees : List Ptr
  queuedRanges : List Ptr
  queuedDps : List Ptr
  allPlayersInQueue : List (Guid×Ptr)
  lastUpdateTime : UInt32

def getMSTimeDiff (oldMSTime newMSTime : UInt32) : UInt32 :=
  if oldMSTime > newMSTime then (0xFFFFFFFF-oldMSTime)+newMSTime else newMSTime-oldMSTime

/-- `completeRange` of a player. -/
def completeRange (world : World) (info : SoloQueueInfo) : UInt32 :=
  world.maxRatingDifference+info.ratingRange

/-- `std::max(0, int32(ArenaMatchmakerRating - completeRange))`. -/
def minMMR (world : World) (info : SoloQueueInfo) : UInt32 :=
  UInt32.ofInt (max 0 (info.ArenaMatchmakerRating-completeRange world info).toInt32.toInt)

/-- `std::min(int32(ArenaMatchmakerRating + completeRange), 4000)`. -/
def maxMMR (world : World) (info : SoloQueueInfo) : UInt32 :=
  UInt32.ofInt (min (info.ArenaMatchmakerRating+completeRange world info).toInt32.toInt 4000)

def IsInMmrRange (min max mmr : UInt32) : Bool := mmr ≥ min && mmr ≤ max

/-- The test between a healer and another player: one of the two windows contains the other's MMR. -/
def inRange (world : World) (heal other : SoloQueueInfo) : Bool :=
  IsInMmrRange (minMMR world other) (maxMMR world other) heal.ArenaMatchmakerRating ||
    IsInMmrRange (minMMR world heal) (maxMMR world heal) other.ArenaMatchmakerRating

/-- `IncreasePlayerMMrRange`, at the time of its `getMSTime()`. -/
def IncreasePlayerMMrRange (time : UInt32) (info : SoloQueueInfo) : SoloQueueInfo :=
  { info with
    ratingRange :=
      if info.ratingRangeIncreaseCounter > 0 then info.ratingRange+100 else info.ratingRange
    ratingRangeIncreaseCounter := info.ratingRangeIncreaseCounter+1
    lastMmrUpdate := time }

/-- The body of the loop over `allPlayersInQueue`. -/
def updateMmrRange (world : World) (info : SoloQueueInfo) : SoloQueueInfo :=
  let (tested,set) := world.mmrTimes info.playerGuid
  if info.ratingRangeIncreaseCounter > 19 then
    info
  else if getMSTimeDiff info.lastMmrUpdate tested ≥ 45*1000 then
    IncreasePlayerMMrRange set info
  else
    info

/-- The loop over `allPlayersInQueue`. -/
def updateMmrRanges (world : World) : List (Guid×Ptr) → (Ptr → Option SoloQueueInfo) →
    Option (Ptr → Option SoloQueueInfo)
  | [],heap => some heap
  | (_,ptr)::entries,heap => do
    let info←heap ptr
    updateMmrRanges world entries (Function.update heap ptr (some (updateMmrRange world info)))

/-- The loop over `queuedRanges` or `queuedMelees`: the first player in range is pushed back. -/
def pushFirst (world : World) (heap : Ptr → Option SoloQueueInfo) (heal : SoloQueueInfo) :
    List Ptr → List Ptr → Option (List Ptr)
  | [],playerList => some playerList
  | ptr::ptrs,playerList => do
    let info←heap ptr
    if inRange world heal info then
      some (playerList++[ptr])
    else
      pushFirst world heap heal ptrs playerList

/-- The loop over `playerList` for one player of `queuedDps`: the new
`playerList` and `already_teamed_class`. -/
def checkDps (world : World) (heap : Ptr → Option SoloQueueInfo) (ptr : Ptr) (guid : Guid)
    (playerList : List Ptr) (teamed : UInt8) : List Ptr → Option (List Ptr×UInt8)
  | [] => some (playerList,teamed)
  | check::checks => do
    let info←heap check
    if info.playerGuid≠guid then
      match world.FindPlayer guid with
      | some player =>
        if player.playerClass≠0 ∧ player.talentTree≠0 ∧ player.playerClass≠teamed then
          some (playerList++[ptr],player.playerClass)
        else
          checkDps world heap ptr guid playerList teamed checks
      | none => checkDps world heap ptr guid playerList teamed checks
    else
      checkDps world heap ptr guid playerList teamed checks

/-- The loop over `queuedDps`. -/
def pushDps (world : World) (heap : Ptr → Option SoloQueueInfo) (heal : SoloQueueInfo) :
    List Ptr → List Ptr → UInt8 → Option (List Ptr)
  | [],playerList,_ => some playerList
  | ptr::ptrs,playerList,teamed =>
    if playerList.length=3 then
      some playerList
    else do
      let info←heap ptr
      if inRange world heal info then
        let (playerList,teamed)←
          checkDps world heap ptr info.playerGuid playerList teamed playerList
        pushDps world heap heal ptrs playerList teamed
      else
        pushDps world heap heal ptrs playerList teamed

/-- The player list for a healer. -/
def makePlayerList (world : World) (queue : SoloQueue) (itr : Ptr) : Option (List Ptr) := do
  let heal←queue.heap itr
  if world.dpsRestriction then
    let playerList←pushFirst world queue.heap heal queue.queuedRanges [itr]
    pushFirst world queue.heap heal queue.queuedMelees playerList
  else
    pushDps world queue.heap heal queue.queuedDps [itr] 0

/-- A search of `RemovePlayer`: the first entry of the player. -/
def findGuid (heap : Ptr → Option SoloQueueInfo) (guid : Guid) : List Ptr → Option (Option Ptr)
  | [] => some none
  | ptr::ptrs => do
    let info←heap ptr
    if info.playerGuid=guid then
      some (some ptr)
    else
      findGuid heap guid ptrs

def SoloQueue.delete (queue : SoloQueue) (ptr : Ptr) : SoloQueue :=
  { queue with heap := Function.update queue.heap ptr none }

/-- `RemovePlayer`; `false` where no multimap has the player. -/
def RemovePlayer (queue : SoloQueue) (guid : Guid) : Option (SoloQueue×Bool) := do
  let queue :=
    { queue with allPlayersInQueue := queue.allPlayersInQueue.filter fun entry => entry.1≠guid }
  match ←findGuid queue.heap guid queue.queuedRanges with
  | some ptr =>
    return ({ queue.delete ptr with queuedRanges := queue.queuedRanges.erase ptr },true)
  | none =>
  match ←findGuid queue.heap guid queue.queuedHealers with
  | some ptr =>
    return ({ queue.delete ptr with queuedHealers := queue.queuedHealers.erase ptr },true)
  | none =>
  match ←findGuid queue.heap guid queue.queuedMelees with
  | some ptr =>
    return ({ queue.delete ptr with queuedMelees := queue.queuedMelees.erase ptr },true)
  | none =>
  match ←findGuid queue.heap guid queue.queuedDps with
  | some ptr =>
    return ({ queue.delete ptr with queuedDps := queue.queuedDps.erase ptr },true)
  | none => return (queue,false)

/-- The loop that removes the players of a team except the healer. -/
def removePlayers (itr : Ptr) : List Ptr → SoloQueue → Option SoloQueue
  | [],queue => some queue
  | ptr::ptrs,queue => do
    let soloInfo←queue.heap ptr
    let heal←queue.heap itr
    if soloInfo.playerGuid=heal.playerGuid then
      removePlayers itr ptrs queue
    else
      let (queue,_)←RemovePlayer queue soloInfo.playerGuid
      removePlayers itr ptrs queue

/-- What `AddSoloQueueGroup` reads of the players. -/
def AddSoloQueueGroup (heap : Ptr → Option SoloQueueInfo) (playerList : List Ptr) :
    Option (List SoloQueueInfo) :=
  playerList.mapM heap

/-- The body of the loop over `queuedHealers`: the team that is formed, if any. -/
def updateHealer (world : World) (queue : SoloQueue) (itr : Ptr) :
    Option (SoloQueue×Option (List Ptr)) := do
  let playerList←makePlayerList world queue itr
  if playerList.length=3 ∧ world.arenaTemplate ∧ world.bracketEntry then
    let _←AddSoloQueueGroup queue.heap playerList
    let queue←removePlayers itr playerList queue
    let heal←queue.heap itr
    let queue :=
      { queue with
        allPlayersInQueue :=
          queue.allPlayersInQueue.filter fun entry => entry.1≠heal.playerGuid }
    let queue := queue.delete itr
    return ({ queue with queuedHealers := queue.queuedHealers.erase itr },some playerList)
  else
    return (queue,none)

/-- The loop over `queuedHealers`. Iterators of a multimap stay valid, so the
loop visits the entries that are still there. -/
def updateHealers (world : World) : List Ptr → SoloQueue → Option (SoloQueue×List (List Ptr))
  | [],queue => some (queue,[])
  | itr::itrs,queue =>
    if itr∈queue.queuedHealers then do
      let (queue,team)←updateHealer world queue itr
      let (queue,teams)←updateHealers world itrs queue
      return (queue,team.toList++teams)
    else
      updateHealers world itrs queue

/-- `Update`, with the teams it hands over. -/
def Update (world : World) (queue : SoloQueue) : Option (SoloQueue×List (List Ptr)) :=
  if getMSTimeDiff queue.lastUpdateTime world.now < 1000 then
    some (queue,[])
  else do
    let heap←updateMmrRanges world queue.allPlayersInQueue queue.heap
    let queue := { queue with heap := heap,lastUpdateTime := world.now }
    updateHealers world queue.queuedHealers queue

end Projectnelth.SoloQueueModel
