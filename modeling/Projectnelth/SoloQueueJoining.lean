import Mathlib
import Projectnelth.RunInvariant
import Projectnelth.SoloQueueTeams

/-!
# Joining and leaving the solo queue

`AddPlayer` admits a player who meets the requirements and has a team, gives the player the id
of the queue and enters the player in the map of all players and in the multimap of the talent
category. A player without a category gets the id and is entered nowhere. What a player brings
along comes with the call; the queue ids of the players are part of the state.
-/

namespace Projectnelth.SoloQueueJoining

open SoloQueueModel SoloQueueTeams

inductive BattlegroundQueueTypeId where
  | none | av | ws | ab | ey | sa | ic | tp | bfg | rb
  /-- `BATTLEGROUND_QUEUE_2v2`. -/
  | arena2v2
  /-- `BATTLEGROUND_QUEUE_3v3`. -/
  | arena3v3
  /-- `BATTLEGROUND_QUEUE_5v5`. -/
  | arena5v5
  /-- `BATTLEGROUND_QUEUE_3v3_SOLO`. -/
  | solo3v3
  /-- `BATTLEGROUND_QUEUE_1v1_SOLO`. -/
  | solo1v1
  | rbg10 | rbg15 | rbg25
  deriving DecidableEq,Repr

/-- What `GetPrimaryTalentTree` gives. -/
inductive TalentTree where
  | none
  | warriorArms | warriorFury | warriorProtection
  | paladinHoly | paladinProtection | paladinRetribution
  | hunterBeastMastery | hunterMarksmanship | hunterSurvival
  | rogueAssassination | rogueCombat | rogueSubtlety
  | priestDiscipline | priestHoly | priestShadow
  | deathKnightBlood | deathKnightFrost | deathKnightUnholy
  | shamanElemental | shamanEnhancement | shamanRestoration
  | mageArcane | mageFire | mageFrost
  | warlockAffliction | warlockDemonology | warlockDestruction
  | druidBalance | druidFeralCombat | druidRestoration
  deriving DecidableEq,Repr

inductive SoloQueueTalentCategory where
  /-- `TALENT_CAT_UNKNOWN`. -/
  | unknown
  /-- `TALENT_CAT_RANGE`. -/
  | range
  /-- `TALENT_CAT_HEALER`. -/
  | healer
  /-- `TALENT_CAT_MELEE`. -/
  | melee
  /-- `TALENT_CAT_DPS`. -/
  | dps
  deriving DecidableEq,Repr

/-- What `AddPlayer` reads of the world. -/
structure Settings where
  isTesting : Bool
  /-- `CONFIG_SOLO_QUEUE_DPS_RESTRICTION`. -/
  dpsRestriction : Bool
  /-- `getMSTime()`. -/
  now : UInt32

/-- What `AddPlayer` reads of a player. -/
structure Applicant where
  /-- `GetGUID()`. -/
  guid : Guid
  /-- `HasAura(SPELL_DESERTER_BUFF)`. -/
  deserter : Bool
  inBattleground : Bool
  /-- `GetFreeTalentPoints()`. -/
  freeTalentPoints : ℕ
  /-- `GetPrimaryTalentTree(GetActiveSpec())`. -/
  talentTree : TalentTree
  /-- `HasAura(48263)`. -/
  bloodPresence : Bool
  /-- `IsInBearForm()`. -/
  bearForm : Bool
  /-- `GetShapeshiftForm() == FORM_CAT`. -/
  catForm : Bool
  /-- `isUsingLfg()`. -/
  usingLfg : Bool
  /-- Whether there is an item in an equipment slot. -/
  equipped : ℕ → Bool
  /-- `GetAverageItemLevel()`, rounded down. -/
  averageItemLevel : ℕ
  /-- The rating and the id of the arena team in the slot of the 5v5 teams. -/
  arenaTeam : Option (UInt32×UInt32)
  /-- `GetMMR`. -/
  mmr : UInt32
  /-- `GetOTeam()`. -/
  team : UInt32

def Applicant.HasTankSpec (player : Applicant) : Bool :=
  match player.talentTree with
  | .warriorProtection | .paladinProtection => true
  | .deathKnightBlood => player.bloodPresence
  | .druidFeralCombat => player.bearForm
  | _ => false

def Applicant.HasHealSpec (player : Applicant) : Bool :=
  match player.talentTree with
  | .paladinHoly | .priestDiscipline | .priestHoly | .shamanRestoration | .druidRestoration => true
  | _ => false

def Applicant.HasMeleeSpec (player : Applicant) (soloQueueRules : Bool) : Bool :=
  match player.talentTree with
  | .warriorArms | .warriorFury | .paladinRetribution | .rogueAssassination | .rogueCombat
  | .rogueSubtlety | .deathKnightFrost | .deathKnightUnholy | .shamanEnhancement => true
  | .druidFeralCombat => soloQueueRules || player.catForm
  | _ => false

/-- `HasCasterSpec`, which does not ask for the rules. -/
def Applicant.HasCasterSpec (player : Applicant) : Bool :=
  match player.talentTree with
  | .priestShadow | .shamanElemental | .mageArcane | .mageFire | .mageFrost | .warlockAffliction
  | .warlockDemonology | .warlockDestruction | .druidBalance | .hunterBeastMastery
  | .hunterMarksmanship | .hunterSurvival => true
  | _ => false

def Applicant.HasDpsSpec (player : Applicant) : Bool :=
  match player.talentTree with
  | .warriorArms | .warriorFury | .paladinRetribution | .rogueAssassination | .rogueCombat
  | .rogueSubtlety | .deathKnightFrost | .deathKnightUnholy | .shamanEnhancement
  | .druidFeralCombat | .priestShadow | .shamanElemental | .mageArcane | .mageFire | .mageFrost
  | .warlockAffliction | .warlockDemonology | .warlockDestruction | .druidBalance
  | .hunterBeastMastery | .hunterMarksmanship | .hunterSurvival => true
  | _ => false

def GetPlayerTalentCategory (settings : Settings) (player : Applicant) :
    SoloQueueTalentCategory :=
  if settings.dpsRestriction=true then
    if player.HasHealSpec=true then .healer
    else if player.HasMeleeSpec true=true then .melee
    else if player.HasCasterSpec=true then .range
    else .unknown
  else
    if player.HasHealSpec=true then .healer
    else if player.HasDpsSpec=true then .dps
    else .unknown

/-- The queue ids of a player, of which there are `PLAYER_MAX_BATTLEGROUND_QUEUES`. -/
abbrev QueueIds := BattlegroundQueueTypeId×BattlegroundQueueTypeId

/-- `InBattlegroundQueueForBattlegroundQueueType`. -/
def inQueue (ids : QueueIds) (id : BattlegroundQueueTypeId) : Bool := ids.1=id || ids.2=id

def HasFreeBattlegroundQueueId (ids : QueueIds) : Bool := ids.1=.none || ids.2=.none

def AddBattlegroundQueueId (ids : QueueIds) (id : BattlegroundQueueTypeId) : QueueIds :=
  if ids.1=.none ∨ ids.1=id then (id,ids.2)
  else if ids.2=.none ∨ ids.2=id then (ids.1,id)
  else ids

def IsPlayerInSoloQueue (queue : SoloQueue) (ids : QueueIds) (guid : Guid) : Bool :=
  queue.allPlayersInQueue.any (·.1=guid) || inQueue ids .solo1v1 || inQueue ids .solo3v3

/-- The loop over the equipment: off hand, ranged, tabard and shirt are not asked for. -/
def fullyEquipped (player : Applicant) : Bool :=
  (List.range 19).all fun slot =>
    slot=16 || slot=17 || slot=18 || slot=3 || player.equipped slot

def CheckRequirements (settings : Settings) (queue : SoloQueue) (ids : QueueIds)
    (player : Applicant) : Bool :=
  settings.isTesting || (!player.deserter && HasFreeBattlegroundQueueId ids &&
    !player.inBattleground && player.freeTalentPoints=0 && !player.HasTankSpec &&
    !player.usingLfg &&
    !(inQueue ids .arena2v2 || inQueue ids .arena3v3 || inQueue ids .arena5v5) &&
    !IsPlayerInSoloQueue queue ids player.guid && fullyEquipped player &&
    player.averageItemLevel ≥ 370)

/-- `emplace` on a multimap: after the entries whose key is not larger. -/
def emplace (heap : Ptr → Option SoloQueueInfo) (mmr : UInt32) (ptr : Ptr) (ptrs : List Ptr) :
    List Ptr :=
  ptrs.takeWhile (fun p => (heap p).any (·.ArenaMatchmakerRating ≤ mmr))++
    ptr::ptrs.dropWhile fun p => (heap p).any (·.ArenaMatchmakerRating ≤ mmr)

/-- `emplace` on `allPlayersInQueue`, which has at most one entry for a guid. -/
def emplaceGuid (guid : Guid) (ptr : Ptr) (entries : List (Guid×Ptr)) : List (Guid×Ptr) :=
  if entries.any (·.1=guid) then entries
  else entries.takeWhile (·.1 < guid)++(guid,ptr)::entries.dropWhile (·.1 < guid)

/-- Whether `AddPlayer` gets past its tests. -/
def admits (settings : Settings) (queue : SoloQueue) (ids : QueueIds) (player : Applicant) :
    Bool :=
  CheckRequirements settings queue ids player && player.arenaTeam.isSome

/-- `AddPlayer` with the address that `new` gives: the queue and the queue ids of the player. -/
def AddPlayer (settings : Settings) (queue : SoloQueue) (ids : QueueIds) (player : Applicant)
    (address : Ptr) : SoloQueue×QueueIds :=
  if CheckRequirements settings queue ids player=true then
    match player.arenaTeam with
    | some (rating,teamId) =>
      let soloInfo : SoloQueueInfo :=
        ⟨player.guid,rating,player.mmr,teamId,0,0,settings.now,player.team⟩
      let ids := AddBattlegroundQueueId ids .solo3v3
      let heap := Function.update queue.heap address (some soloInfo)
      let all := emplaceGuid player.guid address queue.allPlayersInQueue
      match GetPlayerTalentCategory settings player with
      | .healer =>
        ({ queue with
          heap := heap
          queuedHealers := emplace queue.heap player.mmr address queue.queuedHealers
          allPlayersInQueue := all },ids)
      | .melee =>
        ({ queue with
          heap := heap
          queuedMelees := emplace queue.heap player.mmr address queue.queuedMelees
          allPlayersInQueue := all },ids)
      | .range =>
        ({ queue with
          heap := heap
          queuedRanges := emplace queue.heap player.mmr address queue.queuedRanges
          allPlayersInQueue := all },ids)
      | .dps =>
        ({ queue with
          heap := heap
          queuedDps := emplace queue.heap player.mmr address queue.queuedDps
          allPlayersInQueue := all },ids)
      | .unknown => ({ queue with heap := heap },ids)
    | none => (queue,ids)
  else
    (queue,ids)

/-! ## Runs -/

/-- The queue, the queue ids of the players, and who was given the id of the solo queue by
`AddPlayer` and not removed since. -/
structure State where
  queue : SoloQueue
  /-- `m_bgBattlegroundQueueID` of each player. -/
  ids : Guid → QueueIds
  /-- Who was given the id and not removed since. -/
  given : List Guid

/-- A queue that nobody has joined. -/
def State.empty (lastUpdateTime : UInt32) (ids : Guid → QueueIds) : State :=
  ⟨⟨fun _ => none,[],[],[],[],[],lastUpdateTime⟩,ids,[]⟩

/-- A call, or another change of the queue ids of a player. -/
inductive Action where
  /-- `AddPlayer`. -/
  | add (settings : Settings) (player : Applicant) (address : Ptr)
  /-- `RemovePlayer`. -/
  | remove (guid : Guid)
  /-- The rest of the server sets the queue ids of a player. -/
  | setIds (guid : Guid) (ids : QueueIds)

/-- One step. `none` is the use of a deleted object. -/
def step (state : Option State) (action : Action) : Option State := do
  let s←state
  match action with
  | .add settings player address =>
    let (queue,ids) := AddPlayer settings s.queue (s.ids player.guid) player address
    return ⟨queue,Function.update s.ids player.guid ids,
      if admits settings s.queue (s.ids player.guid) player=true then player.guid::s.given
      else s.given⟩
  | .remove guid => do
    let (queue,_)←RemovePlayer s.queue guid
    return { s with queue := queue,given := s.given.filter (·≠guid) }
  | .setIds guid ids => return { s with ids := Function.update s.ids guid ids }

/-- The multimap of a category. -/
def listOf (queue : SoloQueue) : SoloQueueTalentCategory → List Ptr
  | .unknown => []
  | .range => queue.queuedRanges
  | .healer => queue.queuedHealers
  | .melee => queue.queuedMelees
  | .dps => queue.queuedDps

/-- How many entries of a player the multimap of a category has. -/
def entriesOf (queue : SoloQueue) (category : SoloQueueTalentCategory) (guid : Guid) : ℕ :=
  (listOf queue category).countP fun p => (queue.heap p).any (·.playerGuid=guid)

/-- The containers and the players who were given the id agree. -/
structure Mirrored (s : State) : Prop where
  /-- Who was given the id and not removed since is in `allPlayersInQueue` and once in exactly
  one multimap, and conversely. -/
  member : ∀ guid,guid∈s.given ↔ (∃ ptr,(guid,ptr)∈s.queue.allPlayersInQueue) ∧
    ∃ category,entriesOf s.queue category guid=1 ∧
      ∀ other,other≠category → entriesOf s.queue other guid=0
  /-- Nobody else is in any container. -/
  absent : ∀ guid,guid∉s.given → (∀ ptr,(guid,ptr)∉s.queue.allPlayersInQueue) ∧
    ∀ category,entriesOf s.queue category guid=0

end Projectnelth.SoloQueueJoining
