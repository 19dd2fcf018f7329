import Mathlib
import Projectnelth.GroupedWalk

/-!
# Conditions on world objects

A condition asks one question about one of three targets. The evaluator answers it from the
state of the world, the searcher mask says beforehand for which grid types an answer can be
positive. A list of conditions holds where all rows of one else group do; a row may refer to a
template, another list. What the functions ask of objects, maps and scripts is the world's.
-/

namespace Projectnelth.ConditionModel

open OrderedMap GroupedWalk

/-- The kinds of objects. -/
inductive TypeID where
  | object
  | item
  | container
  | unit
  | player
  | gameobject
  | dynamicobject
  | corpse
  | areatrigger
  deriving DecidableEq,Repr

/-- The number of a kind of objects. -/
def TypeID.val : TypeID → ℕ
  | object => 0
  | item => 1
  | container => 2
  | unit => 3
  | player => 4
  | gameobject => 5
  | dynamicobject => 6
  | corpse => 7
  | areatrigger => 8

abbrev typemaskUnit : ℕ := 0x8
abbrev typemaskPlayer : ℕ := 0x10
abbrev typemaskGameobject : ℕ := 0x20
abbrev typemaskCorpse : ℕ := 0x80
abbrev typemaskAreatrigger : ℕ := 0x100

/-- The type mask that the constructors of a kind of objects put together. -/
def TypeID.objectType : TypeID → ℕ
  | object => 0x1
  | item => 0x3
  | container => 0x7
  | unit => 0x9
  | player => 0x19
  | gameobject => 0x21
  | dynamicobject => 0x41
  | corpse => 0x81
  | areatrigger => 0x101

/-- `isType`, whose argument is sixteen bits wide. -/
def TypeID.isType (t : TypeID) (mask : ℕ) : Bool := mask%2^16&&&t.objectType≠0

/-- `GRID_MAP_TYPE_MASK_CORPSE`. -/
abbrev gridCorpse : ℕ := 0x01
/-- `GRID_MAP_TYPE_MASK_CREATURE`. -/
abbrev gridCreature : ℕ := 0x02
/-- `GRID_MAP_TYPE_MASK_GAMEOBJECT`. -/
abbrev gridGameobject : ℕ := 0x08
/-- `GRID_MAP_TYPE_MASK_PLAYER`. -/
abbrev gridPlayer : ℕ := 0x10
/-- `GRID_MAP_TYPE_MASK_AREATRIGGER`. -/
abbrev gridAreatrigger : ℕ := 0x20
/-- `GRID_MAP_TYPE_MASK_ALL`. -/
abbrev gridAll : ℕ := 0x3F

/-- The number of the grid type bit that the searchers ask for before they visit objects of a
kind; items are in no grid. -/
def TypeID.gridBit : TypeID → Option ℕ
  | corpse => some 0
  | unit => some 1
  | dynamicobject => some 2
  | gameobject => some 3
  | player => some 4
  | areatrigger => some 5
  | object => none
  | item => none
  | container => none

/-- What a condition asks. -/
inductive ConditionType where
  | none
  | aura
  | item
  | itemEquipped
  | zoneId
  | reputationRank
  | team
  | skill
  | questRewarded
  | questTaken
  | drunkenState
  | worldState
  | activeEvent
  | instanceInfo
  | questNone
  | unitClass
  | race
  | achievement
  | title
  | spawnMask
  | gender
  | unitState
  | mapId
  | areaId
  | unused24
  | spell
  | phaseMask
  | level
  | questComplete
  | nearCreature
  | nearGameobject
  | objectEntryGuid
  | typeMask
  | relationTo
  | reactionTo
  | distanceTo
  | alive
  | hpVal
  | hpPct
  | inWater
  | hasUnitState
  | hasMount
  /-- A number without a name. -/
  | other (value : ℕ)
  deriving DecidableEq,Repr

/-- The progress of a quest. -/
inductive QuestStatus where
  | none
  | complete
  | incomplete
  | failed
  | rewarded
  deriving DecidableEq,Repr

/-- A row of the `conditions` table as it is kept. -/
structure Condition where
  /-- Rows of one number have to hold together. -/
  elseGroup : ℕ
  conditionType : ConditionType
  /-- The first argument. -/
  conditionValue1 : ℕ
  /-- The second argument. -/
  conditionValue2 : ℕ
  /-- The third argument. -/
  conditionValue3 : ℕ
  /-- The template the row stands for, zero for none. -/
  referenceId : ℕ
  /-- The script that is asked too. -/
  scriptId : ℕ
  /-- The target the question is about. -/
  conditionTarget : ℕ
  /-- Whether the answer is turned around. -/
  negativeCondition : Bool
  deriving DecidableEq,Repr

def Condition.isLoaded (c : Condition) : Bool := c.conditionType≠.none ∨ c.referenceId≠0

/-- The targets of a check and the condition that failed last. -/
structure ConditionSourceInfo (Obj : Type*) where
  /-- The object that is asked about first. -/
  target0 : Option Obj
  /-- The second target, the anchor of owner conditions. -/
  target1 : Option Obj
  target2 : Option Obj
  /-- `mLastFailedCondition`. -/
  lastFailedCondition : Option Condition := none

/-- `mConditionTargets[i]`. -/
def ConditionSourceInfo.target {Obj : Type*} (info : ConditionSourceInfo Obj) : ℕ → Option Obj
  | 0 => info.target0
  | 1 => info.target1
  | 2 => info.target2
  | _ => none

/-- The data of an instance script. -/
structure InstanceScript where
  getData : ℕ → ℕ
  getData64 : ℕ → ℕ
  getBossState : ℕ → ℕ

/-- What the evaluator asks of the world. Real numbers are the values of floats. -/
structure World (Obj : Type*) where
  /-- `GetTypeId`. -/
  typeId : Obj → TypeID
  /-- `GetOwner` of an item, a unit, a player or a game object. -/
  getOwner : Obj → Option Obj
  toFloat : ℕ → ℚ
  hasAuraEffect : Obj → ℕ → ℕ → Bool
  hasAura : Obj → ℕ → Bool
  /-- `HasAuraType(SPELL_AURA_MOUNTED)`. -/
  hasMountedAura : Obj → Bool
  /-- `HasAuraType(SPELL_AURA_FLY)`. -/
  hasFlyAura : Obj → Bool
  hasItemCount : Obj → ℕ → ℕ → Bool → Bool
  /-- `HasItemOrGemWithIdEquipped` with a count of one. -/
  hasItemOrGemWithIdEquipped : Obj → ℕ → Bool
  /-- `GetZoneId`. -/
  zoneId : Obj → ℕ
  /-- Whether `sFactionStore` has the faction. -/
  faction : ℕ → Bool
  /-- `GetReputationMgr().GetRank`. -/
  reputationRank : Obj → ℕ → ℕ
  /-- `HasAchieved` of a player. -/
  hasAchieved : Obj → ℕ → Bool
  /-- `HasAchieved` of the player's guild, if there is one. -/
  guildHasAchieved : Obj → Option (ℕ → Bool)
  /-- `GetTeam`. -/
  team : Obj → ℕ
  /-- `getClassMask`. -/
  classMask : Obj → ℕ
  /-- `getRaceMask`. -/
  raceMask : Obj → ℕ
  /-- `getGender`. -/
  gender : Obj → ℕ
  hasSkill : Obj → ℕ → Bool
  /-- `GetBaseSkillValue`. -/
  baseSkillValue : Obj → ℕ → ℕ
  /-- `GetQuestRewardStatus`. -/
  questRewardStatus : Obj → ℕ → Bool
  /-- `GetQuestStatus`. -/
  questStatus : Obj → ℕ → QuestStatus
  isActiveEvent : ℕ → Bool
  /-- The instance script of the object's map, if it is a dungeon with one. -/
  instanceScript : Obj → Option InstanceScript
  /-- `GetMapId`. -/
  mapId : Obj → ℕ
  /-- `GetAreaId`. -/
  areaId : Obj → ℕ
  hasSpell : Obj → ℕ → Bool
  /-- `getLevel`. -/
  level : Obj → ℕ
  /-- `GetDrunkValue`. -/
  drunkValue : Obj → ℕ
  /-- Whether `GetClosestCreatureWithEntry` finds a creature in range. -/
  nearCreature : Obj → ℕ → ℚ → Bool
  /-- Whether `GetClosestGameObjectWithEntry` finds a game object in range. -/
  nearGameObject : Obj → ℕ → ℚ → Bool
  /-- `GetEntry`. -/
  entry : Obj → ℕ
  /-- `GetDBTableGUIDLow`. -/
  dbTableGuidLow : Obj → ℕ
  unitState : Obj → ℕ
  isInPartyWith : Obj → Obj → Bool
  isInRaidWith : Obj → Obj → Bool
  /-- `GetOwnerGUID`. -/
  ownerGuid : Obj → ℕ
  /-- `GetCreatorGUID`. -/
  creatorGuid : Obj → ℕ
  /-- `GetGUID`. -/
  guid : Obj → ℕ
  isOnVehicle : Obj → Obj → Bool
  /-- `GetReactionTo`. -/
  reactionTo : Obj → Obj → ℕ
  /-- `GetDistance`. -/
  distance : Obj → Obj → ℚ
  isAlive : Obj → Bool
  /-- `GetHealth`. -/
  health : Obj → ℕ
  /-- `GetHealthPct`. -/
  healthPct : Obj → ℚ
  /-- `getWorldState`. -/
  worldState : ℕ → ℕ
  /-- `GetPhaseMask`. -/
  phaseMask : Obj → ℕ
  hasTitle : Obj → ℕ → Bool
  /-- `GetSpawnMode` of the object's map. -/
  spawnMode : Obj → ℕ
  /-- `IsInWater` of the object's map at its place. -/
  isInWater : Obj → Bool
  onConditionCheck : Condition → ConditionSourceInfo Obj → Bool

/-- `CompareValues`; an unknown comparison fails its assertion. -/
def compareValues {α : Type*} [LinearOrder α] (type : ℕ) (val1 val2 : α) : Option Bool :=
  match type with
  | 0 => some (val1=val2)
  | 1 => some (val1 > val2)
  | 2 => some (val1 < val2)
  | 3 => some (val1 ≥ val2)
  | 4 => some (val1 ≤ val2)
  | _ => none

def getDrunkenstateByValue (value : ℕ) : ℕ :=
  if value ≥ 90 then 3
  else if value ≥ 50 then 2
  else if value≠0 then 1
  else 0

section Evaluation

variable {Obj : Type*} [DecidableEq Obj] (w : World Obj)

def toUnit (object : Obj) : Option Obj :=
  if (w.typeId object).isType typemaskUnit=true then some object else none

def toPlayer (object : Obj) : Option Obj :=
  if w.typeId object=.player then some object else none

/-- The answer about a mount, which only players have. -/
def hasMount (object : Obj) (mountStatusRequired : ℕ) : Bool :=
  match w.typeId object with
  | .player =>
    if mountStatusRequired=0 then !w.hasMountedAura object && !w.hasFlyAura object
    else if mountStatusRequired=2 then w.hasFlyAura object
    else w.hasMountedAura object || w.hasAura object 783
  | _ => false

/-- The relation of a unit to another. -/
def relationTo (unit toUnit : Obj) (relation : ℕ) : Bool :=
  match relation with
  | 0 => unit=toUnit
  | 1 => w.isInPartyWith unit toUnit
  | 2 => w.isInRaidWith unit toUnit
  | 3 => w.ownerGuid unit=w.guid toUnit
  | 4 => w.isOnVehicle unit toUnit
  | 5 => w.creatorGuid unit=w.guid toUnit
  | _ => false

/-- The question of an instance's data. -/
def instanceInfo (script : InstanceScript) (entry data type : ℕ) : Bool :=
  match type with
  | 0 => script.getData entry=data
  | 1 => script.getData64 entry=data
  | 2 => script.getBossState entry=data
  | _ => false

/-- Whether an object is of a kind, and of the entry and the spawn where these are given. -/
def objectEntryGuid (object : Obj) (type entry guid : ℕ) : Bool :=
  if (w.typeId object).val=type then
    (entry=0 ∨ w.entry object=entry) &&
      (guid=0 ∨ (w.typeId object≠.unit ∧ w.typeId object≠.gameobject) ∨
        w.dbTableGuidLow object=guid)
  else false

/-- The answer about the object before it is turned around: `none` where an assertion of the
evaluator fails. -/
def condMeets (info : ConditionSourceInfo Obj) (c : Condition) (object : Obj) : Option Bool :=
  let value1 := c.conditionValue1
  let value2 := c.conditionValue2
  let value3 := c.conditionValue3
  match c.conditionType with
  | .none => some true
  | .aura => some ((toUnit w object).any fun unit => w.hasAuraEffect unit value1 (value2%2^8))
  | .item =>
    match toPlayer w object with
    | some player => if value2=0 then none else some (w.hasItemCount player value1 value2 (value3≠0))
    | none => some false
  | .itemEquipped =>
    some ((toPlayer w object).any fun player => w.hasItemOrGemWithIdEquipped player value1)
  | .zoneId => some (w.zoneId object=value1)
  | .reputationRank =>
    some ((toPlayer w object).any fun player =>
      w.faction value1 && value2&&&2^w.reputationRank player value1≠0)
  | .achievement =>
    some ((toPlayer w object).any fun player =>
      if value2≠1 then w.hasAchieved player value1
      else (w.guildHasAchieved player).any fun guild => guild value1)
  | .team => some ((toPlayer w object).any fun player => w.team player=value1)
  | .unitClass => some ((toUnit w object).any fun unit => w.classMask unit&&&value1≠0)
  | .race => some ((toUnit w object).any fun unit => w.raceMask unit&&&value1≠0)
  | .gender => some ((toPlayer w object).any fun player => w.gender player=value1)
  | .skill =>
    some ((toPlayer w object).any fun player =>
      w.hasSkill player value1 && w.baseSkillValue player value1 ≥ value2)
  | .questRewarded =>
    some ((toPlayer w object).any fun player => w.questRewardStatus player value1)
  | .questTaken =>
    some ((toPlayer w object).any fun player => w.questStatus player value1=.incomplete)
  | .questComplete =>
    some ((toPlayer w object).any fun player =>
      w.questStatus player value1=.complete && !w.questRewardStatus player value1)
  | .questNone =>
    some ((toPlayer w object).any fun player => w.questStatus player value1=.none)
  | .activeEvent => some (w.isActiveEvent value1)
  | .instanceInfo =>
    some ((w.instanceScript object).any fun script => instanceInfo script value1 value2 value3)
  | .mapId => some (w.mapId object=value1)
  | .areaId => some (w.areaId object=value1)
  | .spell => some ((toPlayer w object).any fun player => w.hasSpell player value1)
  | .level =>
    match toUnit w object with
    | some unit => compareValues value2 (w.level unit) value1
    | none => some false
  | .drunkenState =>
    some ((toPlayer w object).any fun player =>
      getDrunkenstateByValue (w.drunkValue player) ≥ value1)
  | .nearCreature => some (w.nearCreature object value1 (w.toFloat value2))
  | .nearGameobject => some (w.nearGameObject object value1 (w.toFloat value2))
  | .objectEntryGuid => some (objectEntryGuid w object value1 value2 value3)
  | .hasUnitState => some ((toUnit w object).any fun unit => w.unitState unit&&&value1≠0)
  | .hasMount => some (hasMount w object value1)
  | .typeMask => some ((w.typeId object).isType value1)
  | .relationTo =>
    some ((info.target value1).any fun toObject => (toUnit w toObject).any fun other =>
      (toUnit w object).any fun unit => relationTo w unit other value2)
  | .reactionTo =>
    some ((info.target value1).any fun toObject => (toUnit w toObject).any fun other =>
      (toUnit w object).any fun unit => 2^w.reactionTo unit other&&&value2≠0)
  | .distanceTo =>
    match info.target value1 with
    | some toObject => compareValues value3 (w.distance object toObject) (w.toFloat value2)
    | none => some false
  | .alive => some ((toUnit w object).any fun unit => w.isAlive unit)
  | .hpVal =>
    match toUnit w object with
    | some unit => compareValues value2 (w.health unit) value1
    | none => some false
  | .hpPct =>
    match toUnit w object with
    | some unit => compareValues value2 (w.healthPct unit) (w.toFloat value1)
    | none => some false
  | .worldState => some (value2=w.worldState value1)
  | .phaseMask => some (w.phaseMask object&&&value1≠0)
  | .title => some ((toPlayer w object).any fun player => w.hasTitle player value1)
  | .spawnMask => some (2^w.spawnMode object&&&value1≠0)
  | .unitState => some ((toUnit w object).any fun unit => w.unitState unit&&&value1≠0)
  | .inWater => some ((toUnit w object).any fun unit => w.isInWater unit)
  | .unused24 => some false
  | .other _ => some false

/-- The owner of the anchor, for the kinds of objects that are asked for one. -/
def anchorOwner (anchor : Obj) : Option Obj :=
  match w.typeId anchor with
  | .item => w.getOwner anchor
  | .unit => w.getOwner anchor
  | .player => w.getOwner anchor
  | .gameobject => w.getOwner anchor
  | _ => none

/-- A condition about the third target puts the owner of the second there first. The second
target is read without a check. -/
def ownerTarget (info : ConditionSourceInfo Obj) (c : Condition) :
    Option (ConditionSourceInfo Obj) :=
  if c.conditionTarget=2 then
    info.target1.map fun anchor =>
      match anchorOwner w anchor with
      | some owner => {info with target2 := some owner}
      | none => info
  else some info

/-- `Condition::Meets`: the answer and the targets it leaves, or `none` where the server stops. -/
def Condition.meets (info : ConditionSourceInfo Obj) (c : Condition) :
    Option (Bool×ConditionSourceInfo Obj) :=
  if c.conditionTarget < 3 then
    (ownerTarget w info c).bind fun info =>
      match info.target c.conditionTarget with
      | none => some (false,info)
      | some object =>
        (condMeets w info c object).map fun met =>
          let met := if c.negativeCondition=true then !met else met
          let info := if met=true then info else {info with lastFailedCondition := some c}
          (met && w.onConditionCheck c info,info)
  else none

end Evaluation

/-- The grid types of the objects that have a type of a type mask. -/
def gridMaskOfTypeMask (typeMask : ℕ) : ℕ :=
  (if typeMask&&&typemaskUnit≠0 then gridCreature|||gridPlayer else 0)|||
    (if typeMask&&&typemaskPlayer≠0 then gridPlayer else 0)|||
    (if typeMask&&&typemaskGameobject≠0 then gridGameobject else 0)|||
    (if typeMask&&&typemaskCorpse≠0 then gridCorpse else 0)|||
    (if typeMask&&&typemaskAreatrigger≠0 then gridAreatrigger else 0)

/-- `GetSearcherTypeMaskForCondition`: the grid types for which the condition can be met, or
`none` where its assertion fails. -/
def Condition.getSearcherTypeMaskForCondition (c : Condition) : Option ℕ :=
  if c.negativeCondition=true then some gridAll
  else match c.conditionType with
  | .none => some gridAll
  | .aura => some (gridCreature|||gridPlayer)
  | .item => some gridPlayer
  | .itemEquipped => some gridPlayer
  | .zoneId => some gridAll
  | .reputationRank => some gridPlayer
  | .achievement => some gridPlayer
  | .team => some gridPlayer
  | .unitClass => some (gridCreature|||gridPlayer)
  | .race => some (gridCreature|||gridPlayer)
  | .skill => some gridPlayer
  | .questRewarded => some gridPlayer
  | .questTaken => some gridPlayer
  | .questComplete => some gridPlayer
  | .questNone => some gridPlayer
  | .activeEvent => some gridAll
  | .instanceInfo => some gridAll
  | .mapId => some gridAll
  | .areaId => some gridAll
  | .spell => some gridPlayer
  | .level => some (gridCreature|||gridPlayer)
  | .hasUnitState => some (gridCreature|||gridPlayer)
  | .hasMount => some gridPlayer
  | .drunkenState => some gridPlayer
  | .nearCreature => some gridAll
  | .nearGameobject => some gridAll
  | .objectEntryGuid =>
    let entryMask :=
      match c.conditionValue1 with
      | 3 => gridCreature
      | 4 => gridPlayer
      | 5 => gridGameobject
      | 7 => gridCorpse
      | 8 => gridAreatrigger
      | _ => 0
    -- the case runs on into the next one
    some (entryMask|||gridMaskOfTypeMask c.conditionValue1)
  | .typeMask => some (gridMaskOfTypeMask c.conditionValue1)
  | .relationTo => some (gridCreature|||gridPlayer)
  | .reactionTo => some (gridCreature|||gridPlayer)
  | .distanceTo => some gridAll
  | .alive => some (gridCreature|||gridPlayer)
  | .hpVal => some (gridCreature|||gridPlayer)
  | .hpPct => some (gridCreature|||gridPlayer)
  | .worldState => some gridAll
  | .phaseMask => some gridAll
  | .title => some gridPlayer
  | .spawnMask => some gridAll
  | .gender => some gridPlayer
  | .unitState => some (gridCreature|||gridPlayer)
  | .inWater => some (gridCreature|||gridPlayer)
  | .unused24 => none
  | .other _ => none

/-- `ConditionReferenceStore`. The templates refer to one another without a circle, so that a
bound on the length of a chain of references can be given. -/
structure ReferenceStore where
  templates : List (ℕ×List Condition)
  /-- A height of each template. -/
  rank : ℕ → ℕ
  /-- The heights stay below this. -/
  depth : ℕ
  bounded : ∀ r rows,find r templates=some rows → rank r < depth
  /-- A template refers to lower ones only. -/
  acyclic : ∀ r rows,find r templates=some rows → ∀ c∈rows,∀ rows',
    c.referenceId≠0 → find c.referenceId templates=some rows' → rank c.referenceId < rank r

/-- The passed groups. -/
def groupPassed : Narrowing Bool := ⟨true,fun passed met => passed && met,fun passed => !passed⟩

/-- The masks of the groups. -/
def groupMask : Narrowing ℕ := ⟨gridAll,fun mask m => mask&&&m,fun mask => mask=0⟩

section Lists

variable {Obj : Type*} [DecidableEq Obj] (w : World Obj) (templates : List (ℕ×List Condition))

/-- The answer of one row: a template that is not there passes. -/
def rowMeets
    (list : ConditionSourceInfo Obj → List Condition → Option (Bool×ConditionSourceInfo Obj))
    (info : ConditionSourceInfo Obj) (c : Condition) : Option (Bool×ConditionSourceInfo Obj) :=
  if c.referenceId≠0 then
    match find c.referenceId templates with
    | some rows => list info rows
    | none => some (true,info)
  else c.meets w info

/-- The rows of a list, whose references are answered by `list`. -/
def listMeets
    (list : ConditionSourceInfo Obj → List Condition → Option (Bool×ConditionSourceInfo Obj))
    (info : ConditionSourceInfo Obj) (conditions : List Condition) :
    Option (Bool×ConditionSourceInfo Obj) :=
  (walk groupPassed Condition.elseGroup (rowMeets w templates list) [] info
    (conditions.filter Condition.isLoaded)).map fun r => (r.1.any Prod.snd,r.2)

/-- A list whose chains of references are no longer than a bound. -/
def listMeetsWithin :
    ℕ → ConditionSourceInfo Obj → List Condition → Option (Bool×ConditionSourceInfo Obj)
  | 0 => listMeets w templates fun _ _ => none
  | depth+1 => listMeets w templates (listMeetsWithin depth)

/-- The mask of one row. -/
def rowMask (list : List Condition → Option ℕ) (_ : Unit) (c : Condition) : Option (ℕ×Unit) :=
  if c.referenceId≠0 then
    ((find c.referenceId templates).bind list).map fun mask => (mask,())
  else c.getSearcherTypeMaskForCondition.map fun mask => (mask,())

/-- The mask of a list, whose references are answered by `list`. -/
def listMask (list : List Condition → Option ℕ) (conditions : List Condition) : Option ℕ :=
  if conditions=[] then some gridAll
  else if conditions.all Condition.isLoaded=true then
    (walk groupMask Condition.elseGroup (rowMask templates list) [] () conditions).map fun r =>
      r.1.foldl (fun mask g => mask|||g.2) 0
  else none

/-- The mask of a list whose chains of references are no longer than a bound. -/
def listMaskWithin : ℕ → List Condition → Option ℕ
  | 0 => listMask templates fun _ => none
  | depth+1 => listMask templates (listMaskWithin depth)

end Lists

variable {Obj : Type*} [DecidableEq Obj]

def isObjectMeetToConditionList (w : World Obj) (store : ReferenceStore)
    (info : ConditionSourceInfo Obj) (conditions : List Condition) :
    Option (Bool×ConditionSourceInfo Obj) :=
  listMeetsWithin w store.templates store.depth info conditions

def getSearcherTypeMaskForConditionList (store : ReferenceStore) (conditions : List Condition) :
    Option ℕ :=
  listMaskWithin store.templates store.depth conditions

end Projectnelth.ConditionModel
