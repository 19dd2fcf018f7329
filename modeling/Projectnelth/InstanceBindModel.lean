import Mathlib
import Projectnelth.ArraySizes
import Projectnelth.KeyedList

/-!
# Instance binds

A group has, for each difficulty, a table of the instance saves it is bound to, and a save has
a list of the groups bound to it. A save unloads itself when nobody is bound to it any more.
The pointers are numbers; to follow one that is null or whose object is deleted, or to step
past the end of a table, is a fault and ends the run.
-/

namespace Projectnelth.InstanceBindModel

open KeyedList

abbrev Difficulty := Fin 4

def DUNGEON_DIFFICULTY_HEROIC : Difficulty := 1
def RAID_DIFFICULTY_10MAN_NORMAL : Difficulty := 0
def RAID_DIFFICULTY_25MAN_NORMAL : Difficulty := 1
def RAID_DIFFICULTY_10MAN_HEROIC : Difficulty := 2
def RAID_DIFFICULTY_25MAN_HEROIC : Difficulty := 3
def MAX_DUNGEON_DIFFICULTY : ℕ := 3
def MAX_RAID_DIFFICULTY : ℕ := 4

/-- `InstanceSaveKey::Create`. -/
def createKey (mapId : ℕ) (isLfg : Bool) : ℕ := (mapId &&& 0x00FFFFFF) ||| (isLfg.toNat <<< 24)

structure InstanceSave where
  ptr : ℕ
  /-- `m_instanceid`. -/
  instanceId : ℕ
  /-- `m_mapid`. -/
  mapId : ℕ
  /-- `m_difficulty`. -/
  difficulty : Difficulty
  /-- `m_canReset`. -/
  canReset : Bool
  /-- `m_LFGid`. -/
  lfg : Bool
  /-- The length of `m_playerList`. -/
  players : ℕ
  /-- `m_groupList`. -/
  groupList : List ℕ
  deriving DecidableEq

/-- The key of the map and of the LFG flag. -/
def InstanceSave.key (save : InstanceSave) : ℕ := createKey save.mapId save.lfg

structure InstanceGroupBind where
  save : Option ℕ
  perm : Bool
  deriving DecidableEq

/-- `BoundInstancesMap`, in the order in which it is gone through. -/
abbrev BoundInstancesMap := List (ℕ×InstanceGroupBind)

structure Group where
  /-- `isBGGroup` or `isBFGroup`. -/
  bg : Bool
  /-- `IsNonPermanentLFGGroup`. -/
  lfg : Bool
  /-- `m_dungeonDifficulty`. -/
  dungeonDifficulty : Difficulty
  /-- `m_raidDifficulty`. -/
  raidDifficulty : Difficulty
  /-- `m_boundInstances`. -/
  boundInstances : Difficulty → BoundInstancesMap

/-- The table of a difficulty is written. -/
def Group.setTable (group : Group) (d : Difficulty) (table : BoundInstancesMap) : Group :=
  { group with boundInstances := Function.update group.boundInstances d table }

/-- What the other parts of the server answer during a call. -/
structure Env where
  /-- The map of the save is there, and `HavePlayers`. -/
  havePlayers : ℕ → Bool
  /-- `FindMap` of the save finds a dungeon. -/
  mapFound : ℕ → Bool
  /-- What `InstanceMap::Reset` returns for the map of the save. -/
  mapReset : ℕ → Bool
  /-- The entry of `sMapStore`, and whether it is a raid. -/
  mapEntry : ℕ → Option Bool
  instanceable : ℕ → Bool
  resetTime : ℕ → Difficulty → Bool
  /-- `GetDownscaledMapDifficultyData`: the difficulty it ends with, where it finds data. -/
  downscaled : ℕ → Difficulty → Option Difficulty
  /-- `GetHardModeDifficulty` of the map of the save. -/
  hardMode : ℕ → ℕ
  /-- The leader has the achievement that the difficulty needs, if it needs one. -/
  achieved : ℕ → Difficulty → Bool
  leader : Bool
  memberMaps : List ℕ

/-- The saves, the groups and what was given out. -/
structure World where
  /-- `m_instanceSaveById`. -/
  saves : List InstanceSave
  groups : ℕ → Option Group
  /-- The next pointer of a save. -/
  nextPtr : ℕ
  /-- A fault has ended the run. -/
  fault : Bool

namespace World

/-- The save of a pointer. -/
def save (w : World) (ptr : ℕ) : Option InstanceSave := lookup InstanceSave.ptr ptr w.saves

/-- A save is written. -/
def putSave (w : World) (save : InstanceSave) : World :=
  { w with saves := replace InstanceSave.ptr save w.saves }

/-- A group is written. -/
def putGroup (w : World) (g : ℕ) (group : Group) : World :=
  { w with groups := Function.update w.groups g (some group) }

/-- `UnloadIfEmpty`, and the `delete` after it. -/
def unloadIfEmpty (w : World) (e : Env) (locked : Bool) (save : InstanceSave) : World :=
  if save.players=0 ∧ save.groupList=[] ∧ !e.havePlayers save.ptr ∧ !locked then
    { w with saves := remove InstanceSave.ptr save.ptr w.saves }
  else w.putSave save

def removeGroup (w : World) (e : Env) (locked : Bool) (ptr g : ℕ) : Option World := do
  let save←w.save ptr
  return w.unloadIfEmpty e locked
    { save with groupList := save.groupList.filter fun g' => g'≠g }

def addGroup (w : World) (ptr g : ℕ) : Option World := do
  let save←w.save ptr
  return w.putSave { save with groupList := save.groupList++[g] }

def addPlayer (w : World) (ptr : ℕ) : World :=
  match w.save ptr with
  | none => w
  | some save => w.putSave { save with players := save.players+1 }

/-- `InstanceSave::SetCanReset`. -/
def setCanReset (w : World) (ptr : ℕ) (canReset : Bool) : World :=
  match w.save ptr with
  | none => w
  | some save => w.putSave { save with canReset := canReset }

def removePlayer (w : World) (e : Env) (ptr : ℕ) : World :=
  match w.save ptr with
  | none => w
  | some save => w.unloadIfEmpty e false { save with players := save.players-1 }

/-- `AddInstanceSave`. The map is cut to 16 bits in the save. -/
def addInstanceSave (w : World) (e : Env) (mapId instanceId : ℕ) (d : Difficulty)
    (canReset lfg : Bool) : World :=
  if w.saves.any fun save => save.instanceId=instanceId then w
  else
    match e.mapEntry mapId with
    | none => w
    | some isRaid =>
      if instanceId=0 ∨ (if isRaid then MAX_RAID_DIFFICULTY else MAX_DUNGEON_DIFFICULTY) ≤ d.val
      then w
      else
        let save : InstanceSave := ⟨w.nextPtr,instanceId,mapId%65536,d,canReset,lfg,0,[]⟩
        { w with saves := w.saves++[save], nextPtr := w.nextPtr+1 }

def bindToInstance (w : World) (e : Env) (g : ℕ) (group : Group) (save : InstanceSave)
    (permanent : Bool) : Option World :=
  if group.bg then some w
  else do
    let key := createKey save.mapId group.lfg
    let table := group.boundInstances save.difficulty
    let bound := (lookup Prod.fst key table).bind fun x => x.2.save
    let bind : InstanceGroupBind := ⟨some save.ptr,permanent⟩
    let group := group.setTable save.difficulty (assign Prod.fst (key,bind) table)
    if bound=some save.ptr then some (w.putGroup g group)
    else
      match bound with
      | none => do
        let w←w.addGroup save.ptr g
        return w.putGroup g group
      | some ptr => do
        let w←w.removeGroup e false ptr g
        let w←w.addGroup save.ptr g
        return w.putGroup g group

def unbindInstance (w : World) (e : Env) (locked : Bool) (g mapId : ℕ) (d : Difficulty)
    (isLfgId : Bool) : Option World := do
  let group←w.groups g
  let key := createKey mapId isLfgId
  let table := group.boundInstances d
  match lookup Prod.fst key table with
  | none => some w
  | some (_,bind) => do
    let ptr←bind.save
    let w←w.removeGroup e locked ptr g
    return w.putGroup g (group.setTable d (remove Prod.fst key table))

/-- The methods of a reset. -/
inductive ResetMethod where
  /-- `INSTANCE_RESET_ALL`. -/
  | all
  /-- `INSTANCE_RESET_CHANGE_DIFFICULTY`. -/
  | changeDifficulty
  /-- `INSTANCE_RESET_GROUP_DISBAND`. -/
  | groupDisband
  deriving DecidableEq

/-- `ResetInstances` takes a bind of the table away. -/
def resets (e : Env) (method : ResetMethod) (isRaid entryIsRaid : Bool) (d : Difficulty)
    (save : InstanceSave) : Bool :=
  let isEmpty :=
    if e.mapFound save.ptr && !(method=.groupDisband && !save.canReset) then
      if save.canReset then e.mapReset save.ptr else !e.havePlayers save.ptr
    else true
  !(entryIsRaid≠isRaid || (!save.canReset && method≠.groupDisband)) &&
    !(method=.all && (entryIsRaid || d=DUNGEON_DIFFICULTY_HEROIC)) &&
    (isEmpty || method=.groupDisband || method=.changeDifficulty)

/-- The loop of `ResetInstances` over the table. Where a bind is taken away, the loop steps
over the next one. -/
def resetLoop (e : Env) (method : ResetMethod) (isRaid : Bool) (g : ℕ) (d : Difficulty) :
    BoundInstancesMap → World → Option World
  | [],w => some w
  | (key,bind)::rest,w =>
    match bind.save with
    | none => resetLoop e method isRaid g d rest w
    | some ptr => do
      let save←w.save ptr
      match e.mapEntry save.mapId with
      | none => resetLoop e method isRaid g d rest w
      | some entryIsRaid =>
        if resets e method isRaid entryIsRaid d save then do
          let group←w.groups g
          let table := remove Prod.fst key (group.boundInstances d)
          let w←(w.putGroup g (group.setTable d table)).removeGroup e false ptr g
          match rest with
          | [] => none
          | _::rest => resetLoop e method isRaid g d rest w
        else resetLoop e method isRaid g d rest w

/-- `m_boundInstances` is the table of the first difficulty where it is used as a pointer, so
the number of the difficulty is looked up among the keys of that table. -/
def resetsTable (group : Group) (d : Difficulty) : Bool :=
  (group.boundInstances 0).length≠0 && (lookup Prod.fst d.val (group.boundInstances 0)).isSome &&
    (group.boundInstances d).length≠0

def getDifficulty (group : Group) (isRaid : Bool) : Difficulty :=
  if isRaid then group.raidDifficulty else group.dungeonDifficulty

def resetInstances (w : World) (e : Env) (g : ℕ) (method : ResetMethod) (isRaid : Bool) :
    Option World :=
  match w.groups g with
  | none => some w
  | some group =>
    if group.bg then some w
    else
      let d := getDifficulty group isRaid
      if resetsTable group d then
        resetLoop e method isRaid g d (group.boundInstances d) w
      else some w

/-- `InstanceSave::SetDifficulty`. -/
def setDifficulty (w : World) (ptr : ℕ) (d : Difficulty) : World :=
  { w with saves := w.saves.map fun save =>
    if save.ptr=ptr then { save with difficulty := d } else save }

/-- `InstanceSaveManager::UpdateDifficulty`. -/
def updateDifficulty (w : World) (instanceId : ℕ) (d : Difficulty) : World :=
  { w with saves := w.saves.map fun save =>
    if save.instanceId=instanceId then { save with difficulty := d } else save }

/-- The loop of `SetRaidDifficulty` over the binds, for one member. -/
def setRaidDifficultyLoop (key raidId : ℕ) (d : Difficulty) :
    BoundInstancesMap → World → Option World
  | [],w => some w
  | (k,bind)::rest,w =>
    if k=key then do
      let ptr←bind.save
      let save←w.save ptr
      if save.instanceId=raidId then
        setRaidDifficultyLoop key raidId d rest (w.setDifficulty ptr d)
      else setRaidDifficultyLoop key raidId d rest w
    else setRaidDifficultyLoop key raidId d rest w

/-- The loop of `SetRaidDifficulty` over the members. -/
def setRaidDifficultyMembers (binds : BoundInstancesMap) (lfg : Bool) (raidId : ℕ)
    (d : Difficulty) : List ℕ → World → Option World
  | [],w => some w
  | mapId::rest,w => do
    let w←setRaidDifficultyLoop (createKey mapId lfg) raidId d binds w
    setRaidDifficultyMembers binds lfg raidId d rest w

/-- All the binds of a group. -/
def binds (group : Group) : BoundInstancesMap :=
  group.boundInstances 0++group.boundInstances 1++group.boundInstances 2++group.boundInstances 3

def setRaidDifficulty (w : World) (e : Env) (g : ℕ) (d : Difficulty) (raidId : ℕ) :
    Option World := do
  let group←w.groups g
  setRaidDifficultyMembers (binds group) group.lfg raidId d e.memberMaps
    (w.putGroup g { group with raidDifficulty := d })

def isMapDifficultySwitchable (mapId : ℕ) : Bool :=
  mapId∈[967,720,754,671,669,649,631,724]

/-- The hard mode of an instance keeps the size of its raid. -/
def hardModeRefuses (hardMode : ℕ) (d : Difficulty) : Bool :=
  (hardMode=RAID_DIFFICULTY_25MAN_HEROIC.val &&
      (d=RAID_DIFFICULTY_10MAN_NORMAL || d=RAID_DIFFICULTY_10MAN_HEROIC)) ||
    (hardMode=RAID_DIFFICULTY_10MAN_HEROIC.val &&
      (d=RAID_DIFFICULTY_25MAN_NORMAL || d=RAID_DIFFICULTY_25MAN_HEROIC))

/-- The difficulty that `ProcessBoundSwitch` switches a save to, where it does. -/
def switchesTo (e : Env) (save : InstanceSave) (newDifficulty : Difficulty) :
    Option Difficulty := do
  let d←e.downscaled save.mapId newDifficulty
  if isMapDifficultySwitchable save.mapId && !hardModeRefuses (e.hardMode save.ptr) d &&
      e.achieved save.mapId d then some d
  else none

/-- `m_boundInstances[newDifficulty][key] = m_boundInstances[previousDifficulty][key]`. -/
def copyBind (group : Group) (previous new : Difficulty) (key : ℕ) : Group :=
  match lookup Prod.fst key (group.boundInstances previous) with
  | some x => group.setTable new (assign Prod.fst (key,x.2) (group.boundInstances new))
  | none =>
    let group := group.setTable previous (group.boundInstances previous++[(key,⟨none,false⟩)])
    group.setTable new (assign Prod.fst (key,⟨none,false⟩) (group.boundInstances new))

/-- `ProcessBoundSwitch`, with the map it puts on the list. -/
def processBoundSwitch (w : World) (e : Env) (g : ℕ) (save : InstanceSave)
    (previous new : Difficulty) : Option (World×List ℕ) :=
  match switchesTo e save new with
  | none => some (w,[])
  | some d => do
    let w←
      if save.difficulty≠d then do
        let w←w.setRaidDifficulty e g d save.instanceId
        pure (w.updateDifficulty save.instanceId d)
      else pure w
    let group←w.groups g
    return (w.putGroup g (copyBind group previous d save.key),[save.mapId])

/-- The loop of `SwitchBoundInstance` over the table. -/
def switchLoop (e : Env) (g : ℕ) (previous new : Difficulty) :
    BoundInstancesMap → World → List ℕ → Option (World×List ℕ)
  | [],w,mapToErase => some (w,mapToErase)
  | (_,bind)::rest,w,mapToErase =>
    match bind.save with
    | none => switchLoop e g previous new rest w mapToErase
    | some ptr => do
      let save←w.save ptr
      if save.lfg then switchLoop e g previous new rest w mapToErase
      else do
        let (w,maps)←w.processBoundSwitch e g save previous new
        switchLoop e g previous new rest w (mapToErase++maps)

def switchBoundInstance (w : World) (e : Env) (g : ℕ) (previous new : Difficulty) :
    Option World := do
  let group←w.groups g
  if e.leader then do
    let (w,mapToErase)←switchLoop e g previous new (group.boundInstances previous) w []
    let group←w.groups g
    let table := mapToErase.foldl (fun table mapId => remove Prod.fst mapId table)
      (group.boundInstances previous)
    (w.putGroup g (group.setTable previous table)).setRaidDifficulty e g new 0
  else w.setRaidDifficulty e g new 0

/-- The loop of the destructor over the binds. -/
def removeFromSaves (e : Env) (g : ℕ) : BoundInstancesMap → World → Option World
  | [],w => some w
  | (_,bind)::rest,w =>
    match bind.save with
    | none => removeFromSaves e g rest w
    | some ptr => do
      let w←w.removeGroup e false ptr g
      removeFromSaves e g rest w

/-- `~Group`. The size is that of the table of the first difficulty. -/
def destroy (w : World) (e : Env) (g : ℕ) : Option World := do
  let group←w.groups g
  let w←
    if (group.boundInstances 0).length≠0 then removeFromSaves e g (binds group) w else pure w
  return { w with groups := Function.update w.groups g none }

def disband (w : World) (e : Env) (g : ℕ) : Option World := do
  let group←w.groups g
  if group.bg then w.destroy e g
  else do
    let w←w.resetInstances e g .groupDisband false
    let w←w.resetInstances e g .groupDisband true
    w.destroy e g

/-- The loop of `_ResetSave` over the groups of the save. -/
def unbindGroups (e : Env) (mapId : ℕ) (d : Difficulty) (lfg : Bool) :
    List ℕ → World → Option World
  | [],w => some w
  | g::rest,w => do
    let w←w.unbindInstance e true g mapId d lfg
    unbindGroups e mapId d lfg rest w

def resetSave (w : World) (e : Env) (ptr : ℕ) : Option World := do
  let save←w.save ptr
  let w←unbindGroups e save.mapId save.difficulty save.lfg save.groupList
    (w.putSave { save with players := 0 })
  return { w with saves := remove InstanceSave.ptr ptr w.saves }

def resetInstance (w : World) (e : Env) (mapId instanceId : ℕ) : Option World :=
  if !e.instanceable mapId then some w
  else
    match w.saves.find? fun save => save.instanceId=instanceId with
    | none => some w
    | some save => w.resetSave e save.ptr

/-- The loop of `_ResetOrWarnAll` over the saves. -/
def resetSaves (e : Env) : List ℕ → World → Option World
  | [],w => some w
  | ptr::rest,w => do
    let w←w.resetSave e ptr
    resetSaves e rest w

/-- `_ResetOrWarnAll`, without a warning. -/
def resetAll (w : World) (e : Env) (mapId : ℕ) (d : Difficulty) : Option World :=
  if !e.instanceable mapId || !e.resetTime mapId d then some w
  else
    resetSaves e ((w.saves.filter fun save => save.mapId=mapId && save.difficulty=d).map
      InstanceSave.ptr) w

/-- What can happen. -/
inductive Action where
  /-- A group is made. -/
  | newGroup (g : ℕ) (bg lfg : Bool) (dungeonDifficulty raidDifficulty : Difficulty)
  /-- The LFG manager changes what it says of the group. -/
  | setLfg (g : ℕ) (lfg : Bool)
  | addInstanceSave (mapId instanceId : ℕ) (d : Difficulty) (canReset lfg : Bool)
  | addPlayer (ptr : ℕ)
  | setCanReset (ptr : ℕ) (canReset : Bool)
  | removePlayer (ptr : ℕ)
  | bindToInstance (g ptr : ℕ) (permanent : Bool)
  | unbindInstance (g mapId : ℕ) (d : Difficulty) (isLfgId : Bool)
  | resetInstances (g : ℕ) (method : ResetMethod) (isRaid : Bool)
  | switchBoundInstance (g : ℕ) (previous new : Difficulty)
  /-- `~Group`. A `Disband` is two `ResetInstances` and this. -/
  | destroy (g : ℕ)
  | resetInstance (mapId instanceId : ℕ)
  /-- `_ResetOrWarnAll`. -/
  | resetAll (mapId : ℕ) (d : Difficulty)

/-- What comes of an action. A group or a save that is not there is not asked. -/
def act (w : World) (e : Env) : Action → Option World
  | .newGroup g bg lfg dungeonDifficulty raidDifficulty =>
    match w.groups g with
    | none => some (w.putGroup g ⟨bg,lfg,dungeonDifficulty,raidDifficulty,fun _ => []⟩)
    | some _ => some w
  | .setLfg g lfg =>
    match w.groups g with
    | none => some w
    | some group => some (w.putGroup g { group with lfg := lfg })
  | .addInstanceSave mapId instanceId d canReset lfg =>
    some (w.addInstanceSave e mapId instanceId d canReset lfg)
  | .addPlayer ptr => some (w.addPlayer ptr)
  | .setCanReset ptr canReset => some (w.setCanReset ptr canReset)
  | .removePlayer ptr => some (w.removePlayer e ptr)
  | .bindToInstance g ptr permanent =>
    match w.groups g,w.save ptr with
    | some group,some save => w.bindToInstance e g group save permanent
    | _,_ => some w
  | .unbindInstance g mapId d isLfgId =>
    match w.groups g with
    | none => some w
    | some _ => w.unbindInstance e false g mapId d isLfgId
  | .resetInstances g method isRaid => w.resetInstances e g method isRaid
  | .switchBoundInstance g previous new =>
    match w.groups g with
    | none => some w
    | some _ => w.switchBoundInstance e g previous new
  | .destroy g =>
    match w.groups g with
    | none => some w
    | some _ => w.destroy e g
  | .resetInstance mapId instanceId => w.resetInstance e mapId instanceId
  | .resetAll mapId d => w.resetAll e mapId d

/-- One action. A fault ends the run. -/
def step (w : World) (a : Action×Env) : World :=
  if w.fault then w
  else
    match w.act a.2 a.1 with
    | some w => w
    | none => { w with fault := true }

/-- The world before anything happens. -/
def start : World := ⟨[],fun _ => none,0,false⟩

end World

end Projectnelth.InstanceBindModel
