import Mathlib
import Projectnelth.ConditionModel

/-!
# The loading checks of conditions

A row of the table becomes a condition where its numbers pass the checks. A row that refers to
a template is not checked, and neither is a kind of condition without a name.
-/

namespace Projectnelth.ConditionModel

/-- What the checks look up in the stores of the server. -/
structure LoadingStores where
  spellInfo : ℕ → Bool
  itemTemplate : ℕ → Bool
  /-- The zone of an area, zero where it is a zone itself. -/
  areaZone : ℕ → Option ℕ
  faction : ℕ → Bool
  skillLine : ℕ → Bool
  configMaxSkillValue : ℕ
  questTemplate : ℕ → Bool
  validEvent : ℕ → Bool
  achievement : ℕ → Bool
  map : ℕ → Bool
  creatureTemplate : ℕ → Bool
  gameObjectTemplate : ℕ → Bool
  /-- The entry of a creature spawn. -/
  creatureData : ℕ → Option ℕ
  /-- The entry of a game object spawn. -/
  goData : ℕ → Option ℕ
  /-- `getWorldState`. -/
  worldState : ℕ → ℕ
  charTitle : ℕ → Bool

/-- `ALLIANCE`. -/
abbrev teamAlliance : ℕ := 469
/-- `HORDE`. -/
abbrev teamHorde : ℕ := 67
abbrev classmaskAllPlayable : ℕ := 0x5FF
abbrev racemaskAllPlayable : ℕ := 0x2007FF
abbrev spawnmaskRaidAll : ℕ := 0xF
abbrev unitStateAllState : ℕ := 0xFFFFFFFF
abbrev conditionMax : ℕ := 301
abbrev compTypeMax : ℕ := 5
abbrev relationMax : ℕ := 6
/-- `GetMaxAvailableConditionTargets`, three for every source type. -/
abbrev maxAvailableConditionTargets : ℕ := 3
/-- The bits outside of the type masks that a condition may ask for. -/
abbrev otherTypemasks : ℕ := 0xFFFFFFFF-(0x8+0x10+0x20+0x80)

/-- A number as a kind of condition. -/
def ConditionType.ofNat : ℕ → ConditionType
  | 0 => .none
  | 1 => .aura
  | 2 => .item
  | 3 => .itemEquipped
  | 4 => .zoneId
  | 5 => .reputationRank
  | 6 => .team
  | 7 => .skill
  | 8 => .questRewarded
  | 9 => .questTaken
  | 10 => .drunkenState
  | 11 => .worldState
  | 12 => .activeEvent
  | 13 => .instanceInfo
  | 14 => .questNone
  | 15 => .unitClass
  | 16 => .race
  | 17 => .achievement
  | 18 => .title
  | 19 => .spawnMask
  | 20 => .gender
  | 21 => .unitState
  | 22 => .mapId
  | 23 => .areaId
  | 24 => .unused24
  | 25 => .spell
  | 26 => .phaseMask
  | 27 => .level
  | 28 => .questComplete
  | 29 => .nearCreature
  | 30 => .nearGameobject
  | 31 => .objectEntryGuid
  | 32 => .typeMask
  | 33 => .relationTo
  | 34 => .reactionTo
  | 35 => .distanceTo
  | 36 => .alive
  | 37 => .hpVal
  | 38 => .hpPct
  | 40 => .inWater
  | 201 => .hasUnitState
  | 202 => .hasMount
  | n => .other n

/-- The check of a kind of objects with an entry and a spawn. -/
def LoadingStores.checkSpawn (template : ℕ → Bool) (data : ℕ → Option ℕ) (entry guid : ℕ) : Bool :=
  (entry=0 || template entry) &&
    (guid=0 || (data guid).any fun id => entry=0 || id=entry)

def isConditionTypeValid (stores : LoadingStores) (c : Condition) : Bool :=
  let value1 := c.conditionValue1
  let value2 := c.conditionValue2
  let value3 := c.conditionValue3
  if c.conditionTarget ≥ maxAvailableConditionTargets then false
  else match c.conditionType with
  | .none => false
  | .other n => n < conditionMax
  | .aura => stores.spellInfo value1 && value2 ≤ 2
  | .item => stores.itemTemplate value1 && value2≠0
  | .itemEquipped => stores.itemTemplate value1
  | .zoneId => stores.areaZone value1=some 0
  | .reputationRank => stores.faction value1
  | .team => value1=teamAlliance || value1=teamHorde
  | .skill => stores.skillLine value1 && 1 ≤ value2 && value2 ≤ stores.configMaxSkillValue
  | .questRewarded => stores.questTemplate value1
  | .questTaken => stores.questTemplate value1
  | .questNone => stores.questTemplate value1
  | .questComplete => stores.questTemplate value1
  | .activeEvent => stores.validEvent value1
  | .achievement => stores.achievement value1
  | .unitClass => value1&&&classmaskAllPlayable≠0
  | .race => value1&&&racemaskAllPlayable≠0
  | .gender => value1%2^8 ≤ 1
  | .mapId => stores.map value1
  | .spell => stores.spellInfo value1
  | .level => value2 < compTypeMax
  | .hasUnitState => true
  | .hasMount => true
  | .drunkenState => value1 ≤ 3 && value2=0
  | .nearCreature => stores.creatureTemplate value1
  | .nearGameobject => stores.gameObjectTemplate value1
  | .objectEntryGuid =>
    match value1 with
    | 3 => LoadingStores.checkSpawn stores.creatureTemplate stores.creatureData value2 value3
    | 5 => LoadingStores.checkSpawn stores.gameObjectTemplate stores.goData value2 value3
    | 4 => true
    | 7 => true
    | _ => false
  | .typeMask => value1≠0 && value1&&&otherTypemasks=0
  | .relationTo =>
    value1 < maxAvailableConditionTargets && value1≠c.conditionTarget && value2 < relationMax
  | .reactionTo =>
    value1 < maxAvailableConditionTargets && value1≠c.conditionTarget && value2≠0
  | .distanceTo =>
    value1 < maxAvailableConditionTargets && value1≠c.conditionTarget && value3 < compTypeMax
  | .alive => true
  | .hpVal => value2 < compTypeMax
  | .hpPct => value1 ≤ 100 && value2 < compTypeMax
  | .areaId => true
  | .instanceInfo => true
  | .worldState => stores.worldState value1≠0
  | .phaseMask => true
  | .title => stores.charTitle value1
  | .spawnMask => value1 ≤ spawnmaskRaidAll
  | .unitState => value1 ≤ unitStateAllState
  | .unused24 => false
  | .inWater => true

/-- A row of the `conditions` table. -/
structure ConditionRow where
  /-- A source type, or a template whose row this is. -/
  sourceTypeOrReferenceId : ℤ
  elseGroup : ℕ
  /-- A kind of condition, or a template that the row stands for. -/
  conditionTypeOrReference : ℤ
  conditionTarget : ℕ
  /-- The first argument. -/
  conditionValue1 : ℕ
  /-- The second argument. -/
  conditionValue2 : ℕ
  /-- The third argument. -/
  conditionValue3 : ℕ
  /-- Whether the answer is turned around. -/
  negativeCondition : ℕ
  scriptId : ℕ

/-- The fields of a row as they are read. -/
def readCondition (row : ConditionRow) : Condition where
  elseGroup := row.elseGroup
  conditionType :=
    if row.conditionTypeOrReference ≥ 0 then .ofNat row.conditionTypeOrReference.toNat else .none
  conditionValue1 := row.conditionValue1
  conditionValue2 := row.conditionValue2
  conditionValue3 := row.conditionValue3
  referenceId := 0
  scriptId := row.scriptId
  conditionTarget := row.conditionTarget
  negativeCondition := row.negativeCondition≠0

/-- What `LoadConditions` makes of a row before it files it, nothing where it skips the row. -/
def loadCondition (stores : LoadingStores) (row : ConditionRow) : Option Condition :=
  let c := readCondition row
  if row.conditionTypeOrReference < 0 then
    if row.conditionTypeOrReference=row.sourceTypeOrReferenceId then none
    else some {c with referenceId := row.conditionTypeOrReference.natAbs}
  else if isConditionTypeValid stores c=true then some c
  else none

/-- A condition that some row of the table becomes. -/
def Loaded (stores : LoadingStores) (c : Condition) : Prop :=
  ∃ row,loadCondition stores row=some c

variable {stores : LoadingStores} {c : Condition}

/-- A loaded condition refers to a template or has passed the checks. -/
theorem Loaded.valid (h : Loaded stores c) (href : c.referenceId=0) :
    isConditionTypeValid stores c=true := by
  obtain ⟨row,hrow⟩ := h
  unfold loadCondition at hrow
  dsimp only at hrow
  split_ifs at hrow with hneg hself hvalid
  · cases hrow
    exact absurd href (Int.natAbs_ne_zero.mpr hneg.ne)
  · rw [← Option.some.inj hrow]
    exact hvalid

theorem target_lt_of_valid (h : isConditionTypeValid stores c=true) : c.conditionTarget < 3 := by
  unfold isConditionTypeValid at h
  dsimp only at h
  by_contra hge
  rw [if_pos (not_lt.mp hge)] at h
  exact Bool.noConfusion h

theorem Loaded.isLoaded (h : Loaded stores c) : c.isLoaded=true := by
  by_cases href : c.referenceId=0
  · have hvalid := h.valid href
    unfold isConditionTypeValid at hvalid
    dsimp only at hvalid
    unfold Condition.isLoaded
    refine decide_eq_true (Or.inl fun hnone => ?_)
    rw [hnone] at hvalid
    split_ifs at hvalid
  · exact decide_eq_true (Or.inr href)

end Projectnelth.ConditionModel
