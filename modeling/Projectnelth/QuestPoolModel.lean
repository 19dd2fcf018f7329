import Mathlib
import Projectnelth.RunInvariant

/-!
# Quest pools

Each pool of daily or weekly quests keeps some of them active. All pools share the set of active
quests. A pool is spawned at the start, from what was saved or at random, and again whenever its
quests change. The random numbers are an input. A pool of quests has no other members and is no
part of another pool.
-/

namespace Projectnelth.QuestPoolModel

open RunInvariant

/-- `PoolGroup < Quest>`, with what the template of the pool says. All quests are equal chanced. -/
structure PoolGroup where
  poolId : ℕ
  EqualChanced : List ℕ
  /-- `mPoolTemplate[poolId].MaxLimit`. -/
  MaxLimit : ℕ
  deriving DecidableEq

def PoolGroup.GetFirstEqualChancedObjectId (group : PoolGroup) : ℕ :=
  group.EqualChanced.head?.getD 0

structure Quest where
  IsDaily : Bool
  IsWeekly : Bool

/-- What `PoolMgr` loads. Each quest belongs to one pool. -/
structure PoolConfig where
  mPoolQuestGroups : List PoolGroup
  GetQuestTemplate : ℕ → Option Quest
  ids : ∀ group∈mPoolQuestGroups, ∀ other∈mPoolQuestGroups,
    group.poolId=other.poolId → group=other
  apart : ∀ group∈mPoolQuestGroups, ∀ other∈mPoolQuestGroups, ∀ quest∈group.EqualChanced,
    quest∈other.EqualChanced → group=other
  once : ∀ group∈mPoolQuestGroups, group.EqualChanced.Nodup
  /-- Each pool may keep a quest active. -/
  limited : ∀ group∈mPoolQuestGroups, 1 ≤ group.MaxLimit

/-- `ActivePoolData`, and for which pool each quest was activated, the last first. -/
structure ActivePoolData where
  /-- `mActiveQuests`, in order. -/
  mActiveQuests : List ℕ
  mSpawnedPools : ℕ → ℕ
  activated : List (ℕ×ℕ)

/-- A quest comes into an ordered set. -/
def insertQuest (quest_id : ℕ) (quests : List ℕ) : List ℕ :=
  if quest_id∈quests then quests else quests.orderedInsert (·≤·) quest_id

namespace ActivePoolData

/-- `IsActiveObject < Quest>`. -/
def IsActiveObject (spawns : ActivePoolData) (quest_id : ℕ) : Bool :=
  quest_id∈spawns.mActiveQuests

/-- `ActivateObject < Quest>`. -/
def ActivateObject (spawns : ActivePoolData) (quest_id pool_id : ℕ) : ActivePoolData where
  mActiveQuests := insertQuest quest_id spawns.mActiveQuests
  mSpawnedPools := Function.update spawns.mSpawnedPools pool_id (spawns.mSpawnedPools pool_id+1)
  activated := (quest_id,pool_id)::spawns.activated

/-- `RemoveObject < Quest>`. -/
def RemoveObject (spawns : ActivePoolData) (quest_id pool_id : ℕ) : ActivePoolData :=
  { spawns with
    mActiveQuests := spawns.mActiveQuests.erase quest_id
    mSpawnedPools := Function.update spawns.mSpawnedPools pool_id
      (spawns.mSpawnedPools pool_id-1) }

end ActivePoolData

/-- The spawn data and the random numbers to come; when they are used up they are 0. -/
structure State where
  /-- `mSpawnedData`. -/
  spawns : ActivePoolData
  /-- The random numbers to come. -/
  rolls : List ℕ

def SelectRandomContainerElement (rolls : List ℕ) (container : List ℕ) : ℕ :=
  container.getD (rolls.headD 0%container.length) 0

/-- The loop of `DespawnObject`. -/
def despawnLoop (poolId : ℕ) : List ℕ → ActivePoolData → ActivePoolData
  | [],spawns => spawns
  | quest::quests,spawns =>
    despawnLoop poolId quests
      (if spawns.IsActiveObject quest then spawns.RemoveObject quest poolId else spawns)

def PoolGroup.DespawnObject (group : PoolGroup) (spawns : ActivePoolData) : ActivePoolData :=
  despawnLoop group.poolId group.EqualChanced spawns

/-- The loop over the saved rows. -/
def loadLoop (poolId : ℕ) : List ℕ → ℕ → ActivePoolData → ActivePoolData
  | questId::rows,limit+1,spawns =>
    loadLoop poolId rows limit (spawns.ActivateObject questId poolId)
  | _,_,spawns => spawns

/-- The loop that gathers the quests that are not active. -/
def newQuestsLoop (spawns : ActivePoolData) : List ℕ → List ℕ → List ℕ
  | [],newQuests => newQuests
  | quest::quests,newQuests =>
    newQuestsLoop spawns quests
      (if spawns.IsActiveObject quest then newQuests else insertQuest quest newQuests)

/-- The quests of the pool that are not active. -/
def PoolGroup.newQuests (group : PoolGroup) (spawns : ActivePoolData) : List ℕ :=
  newQuestsLoop spawns group.EqualChanced []

/-- The loop that recycles active quests, with as many rounds left as there are such quests.
Gives the new quests and the random numbers that are left. -/
def recycleLoop (limit : ℕ) : ℕ → List ℕ → List ℕ → List ℕ → List ℕ×List ℕ
  | 0,_,newQuests,rolls => (newQuests,rolls)
  | n+1,currentQuests,newQuests,rolls =>
    let questId := SelectRandomContainerElement rolls currentQuests
    let newQuests := insertQuest questId newQuests
    let currentQuests := currentQuests.erase questId
    if newQuests.length < limit ∧ currentQuests≠[] then
      recycleLoop limit n currentQuests newQuests rolls.tail
    else (newQuests,rolls.tail)

/-- The quests to choose from: those of the pool that are not active and, where they are fewer
than the limit, active ones. Gives also the random numbers that are left. -/
def PoolGroup.candidates (group : PoolGroup) (limit : ℕ) (s : State) : List ℕ×List ℕ :=
  let currentQuests := s.spawns.mActiveQuests
  let newQuests := group.newQuests s.spawns
  if newQuests.length < limit ∧ currentQuests≠[] then
    recycleLoop limit currentQuests.length currentQuests newQuests s.rolls
  else (newQuests,s.rolls)

/-- The loop that activates new quests. -/
def activateLoop (poolId : ℕ) : ℕ → List ℕ → State → State
  | 0,_,s => s
  | limit+1,newQuests,s =>
    let questId := SelectRandomContainerElement s.rolls newQuests
    let s : State := ⟨s.spawns.ActivateObject questId poolId,s.rolls.tail⟩
    let newQuests := newQuests.erase questId
    if newQuests≠[] then activateLoop poolId limit newQuests s else s

/-- `PoolGroup < Quest>::SpawnObject`. What was saved is read where nothing triggers. -/
def PoolGroup.SpawnObject (group : PoolGroup) (rows : List ℕ) (limit triggerFrom : ℕ)
    (s : State) : State :=
  if triggerFrom=0 ∧ rows≠[] then ⟨loadLoop group.poolId rows limit s.spawns,s.rolls⟩
  else
    let candidates := group.candidates limit s
    let spawns := group.DespawnObject s.spawns
    if candidates.1=[] then ⟨spawns,candidates.2⟩
    else activateLoop group.poolId limit candidates.1 ⟨spawns,candidates.2⟩

/-- `SpawnPool < Quest>`, for a pool and what triggers it. -/
def SpawnPool (rows : ℕ → List ℕ) (s : State) (a : PoolGroup×ℕ) : State :=
  if a.1.EqualChanced=[] then s
  else a.1.SpawnObject (rows a.1.poolId) a.1.MaxLimit a.2 s

/-- The start: the pools that are spawned then, one after the other. -/
def startUp (rows : ℕ → List ℕ) (rolls : List ℕ) (started : List PoolGroup) : State :=
  run (SpawnPool rows) ⟨⟨[],fun _ => 0,[]⟩,rolls⟩ (started.map fun group => (group,0))

/-- The changes. -/
inductive Change where
  /-- `ChangeDailyQuests`. -/
  | daily
  /-- `ChangeWeeklyQuests`. -/
  | weekly
  deriving DecidableEq

/-- The pools that a change goes through, with what triggers them. -/
def PoolConfig.rotated (cfg : PoolConfig) (change : Change) : List (PoolGroup×ℕ) :=
  (cfg.mPoolQuestGroups.filter fun group =>
    match cfg.GetQuestTemplate group.GetFirstEqualChancedObjectId with
    | none => false
    | some quest =>
      match change with
      | .daily => !quest.IsWeekly
      | .weekly => !quest.IsDaily).map fun group => (group,1)

/-- `ChangeDailyQuests` and `ChangeWeeklyQuests`. -/
def PoolConfig.change (cfg : PoolConfig) (rows : ℕ → List ℕ) (s : State) (change : Change) :
    State :=
  run (SpawnPool rows) s (cfg.rotated change)

/-- `SaveQuestsToDB`: what is saved for each pool. -/
def PoolConfig.SaveQuestsToDB (cfg : PoolConfig) (s : State) (poolId : ℕ) : List ℕ :=
  (cfg.mPoolQuestGroups.filter fun group => group.poolId=poolId).flatMap fun group =>
    group.EqualChanced.filter s.spawns.IsActiveObject

end Projectnelth.QuestPoolModel
