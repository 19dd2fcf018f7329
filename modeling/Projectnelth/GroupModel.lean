import Mathlib
import Projectnelth.ArraySizes

/-!
# Groups

A group is a list of member slots beside counters of the subgroups of a raid. Which
players are found in the world, and where they are, is given with each operation; the
links of the players that are logged in are part of the group. The loot rolls of a group
are modelled on their own.
-/

namespace Projectnelth.GroupModel

def MAXGROUPSIZE : ℕ := 5

abbrev MAX_RAID_SUBGROUPS : ℕ := 8

abbrev TARGETICONCOUNT : ℕ := 8

def MEMBER_FLAG_ASSISTANT : UInt8 := 1

def MEMBER_FLAG_MAINTANK : UInt8 := 2

def MEMBER_FLAG_MAINASSIST : UInt8 := 4

def GROUPTYPE_NORMAL : UInt8 := 0

def GROUPTYPE_BG : UInt8 := 1

def GROUPTYPE_RAID : UInt8 := 2

def GROUPTYPE_LFG_RESTRICTED : UInt8 := 4

def GROUPTYPE_LFG : UInt8 := 8

structure MemberSlot where
  guid : UInt64
  group : Fin MAX_RAID_SUBGROUPS
  /-- The `GroupMemberFlags`. -/
  flags : UInt8
  deriving DecidableEq

/-- `m_subGroupsCounts`. -/
abbrev SubGroupsCounts := Fin MAX_RAID_SUBGROUPS → UInt8

structure Group where
  /-- `m_memberSlots`. -/
  memberSlots : List MemberSlot
  /-- `m_memberMgr`: the players that are logged in and linked to the group. -/
  memberMgr : List UInt64
  /-- `m_leaderGuid`. -/
  leaderGuid : UInt64
  /-- `m_groupType`. -/
  groupType : UInt8
  /-- Whether there is an `m_bgGroup`. -/
  isBGGroup : Bool
  /-- Whether there is an `m_bfGroup`. -/
  isBFGroup : Bool
  /-- `m_targetIcons`. -/
  targetIcons : Fin TARGETICONCOUNT → UInt64
  /-- `m_subGroupsCounts`, if it is allocated. -/
  subGroupsCounts : Option SubGroupsCounts

/-- The world around an operation. -/
structure World where
  /-- `FindPlayer` finds the player. -/
  findPlayer : UInt64 → Bool
  isAlive : UInt64 → Bool
  /-- `GetMapId`. -/
  mapId : UInt64 → UInt32
  /-- `GetDungeonMapId` of the group. -/
  dungeonMapId : UInt32

inductive RemoveMethod where
  | default
  | kick
  | leave
  | kickLfg
  deriving DecidableEq

def isRaidGroup (g : Group) : Bool := decide (g.groupType &&& GROUPTYPE_RAID≠0)

def isLFGGroup (g : Group) : Bool := decide (g.groupType &&& GROUPTYPE_LFG≠0)

/-- A member slot has a flag. -/
def hasFlag (flag : UInt8) (slot : MemberSlot) : Bool := decide (slot.flags &&& flag≠0)

def IsMember (g : Group) (guid : UInt64) : Prop := ∃ slot∈g.memberSlots,slot.guid=guid

instance (g : Group) (guid : UInt64) : Decidable (IsMember g guid) :=
  inferInstanceAs (Decidable (∃ slot∈g.memberSlots,slot.guid=guid))

/-- `_getMemberWSlot`. -/
def getMemberSlot (slots : List MemberSlot) (guid : UInt64) : Option MemberSlot :=
  slots.find? fun slot => slot.guid=guid

/-- A write to the slot that `_getMemberWSlot` finds. -/
def updateSlot (guid : UInt64) (f : MemberSlot → MemberSlot) : List MemberSlot → List MemberSlot
  | [] => []
  | slot::slots => if slot.guid=guid then f slot::slots else slot::updateSlot guid f slots

def subGroupCounterIncrease (subgroup : Fin MAX_RAID_SUBGROUPS) (counts : SubGroupsCounts) :
    SubGroupsCounts :=
  Function.update counts subgroup (counts subgroup+1)

def subGroupCounterDecrease (subgroup : Fin MAX_RAID_SUBGROUPS) (counts : SubGroupsCounts) :
    SubGroupsCounts :=
  Function.update counts subgroup (counts subgroup-1)

def initRaidSubGroupsCounter (slots : List MemberSlot) : SubGroupsCounts :=
  slots.foldl (fun counts slot => subGroupCounterIncrease slot.group counts) fun _ => 0

def toggleGroupMemberFlag (flag : UInt8) (apply : Bool) (slot : MemberSlot) : MemberSlot :=
  { slot with flags := if apply then slot.flags ||| flag else slot.flags &&& ~~~flag }

def removeUniqueGroupMemberFlag (g : Group) (flag : UInt8) : Group :=
  { g with
    memberSlots :=
      g.memberSlots.map fun slot =>
        if hasFlag flag slot then toggleGroupMemberFlag flag false slot else slot }

/-- The first subgroup with room. -/
def firstFreeSubgroup (counts : SubGroupsCounts) : Option (Fin MAX_RAID_SUBGROUPS) :=
  (List.finRange MAX_RAID_SUBGROUPS).find? fun subgroup => (counts subgroup).toNat < MAXGROUPSIZE

/-- The reference of a player to the group is linked. -/
def link (memberMgr : List UInt64) (guid : UInt64) : List UInt64 := guid::memberMgr.erase guid

/-- A new member in a subgroup. -/
def insertMember (g : Group) (guid : UInt64) (subGroup : Fin MAX_RAID_SUBGROUPS) : Group :=
  { g with
    memberSlots := g.memberSlots++[{ guid := guid, group := subGroup, flags := 0 }]
    subGroupsCounts := g.subGroupsCounts.map (subGroupCounterIncrease subGroup)
    memberMgr := link g.memberMgr guid
    targetIcons := if isRaidGroup g then g.targetIcons else fun _ => 0 }

/-- `AddMember`; a raid without room stays as it is. -/
def addMember (g : Group) (guid : UInt64) : Group :=
  match g.subGroupsCounts with
  | none => insertMember g guid 0
  | some counts =>
    match firstFreeSubgroup counts with
    | none => g
    | some subGroup => insertMember g guid subGroup

/-- The constructor. -/
def newGroup (isBGGroup isBFGroup : Bool) : Group :=
  { memberSlots := []
    memberMgr := []
    leaderGuid := 0
    groupType := GROUPTYPE_NORMAL
    isBGGroup := isBGGroup
    isBFGroup := isBFGroup
    targetIcons := fun _ => 0
    subGroupsCounts := none }

def create (g : Group) (leader : UInt64) : Group :=
  let groupType :=
    if g.isBGGroup || g.isBFGroup then GROUPTYPE_BG ||| GROUPTYPE_RAID else g.groupType
  let typed := { g with leaderGuid := leader, groupType := groupType }
  addMember
    { typed with
      subGroupsCounts :=
        if isRaidGroup typed then some (initRaidSubGroupsCounter g.memberSlots)
        else g.subGroupsCounts } leader

def convertToLFG (g : Group) : Group :=
  { g with groupType := g.groupType ||| GROUPTYPE_LFG ||| GROUPTYPE_LFG_RESTRICTED }

def convertToLFR (g : Group) : Group :=
  { g with
    groupType := g.groupType ||| GROUPTYPE_LFG ||| GROUPTYPE_LFG_RESTRICTED ||| GROUPTYPE_RAID
    subGroupsCounts := some (initRaidSubGroupsCounter g.memberSlots) }

def convertToRaid (g : Group) : Group :=
  { g with
    groupType := g.groupType ||| GROUPTYPE_RAID
    subGroupsCounts := some (initRaidSubGroupsCounter g.memberSlots) }

def convertToGroup (g : Group) : Group :=
  if g.memberSlots.length > 5 then g
  else { g with groupType := GROUPTYPE_NORMAL, subGroupsCounts := none }

def changeLeader (w : World) (g : Group) (newLeaderGuid : UInt64) : Group :=
  match getMemberSlot g.memberSlots newLeaderGuid with
  | none => g
  | some slot =>
    if !w.findPlayer slot.guid then g
    else
      { g with
        leaderGuid := slot.guid
        memberSlots :=
          updateSlot newLeaderGuid (toggleGroupMemberFlag MEMBER_FLAG_ASSISTANT false)
            g.memberSlots }

/-- The slot of a member goes, and is taken from its counter. -/
def eraseSlot (g : Group) (guid : UInt64) : Group :=
  match getMemberSlot g.memberSlots guid with
  | none => g
  | some slot =>
    { g with
      subGroupsCounts := g.subGroupsCounts.map (subGroupCounterDecrease slot.group)
      memberSlots := g.memberSlots.eraseP fun slot => slot.guid=guid }

/-- The links that are left when a player is removed. -/
def linksLeft (w : World) (g : Group) (guid : UInt64) : List UInt64 :=
  let unlinked := if w.findPlayer guid then g.memberMgr.erase guid else g.memberMgr
  if !g.isBGGroup && !g.isBFGroup then unlinked.erase guid else unlinked

/-- The size that a group has to exceed for a member to be removed from it. -/
def membersNeeded (g : Group) : ℕ := if g.isBGGroup || isLFGGroup g || g.isBFGroup then 1 else 2

/-- The links that a group needs to go on. -/
def linksNeeded (g : Group) : ℕ := if isLFGGroup g || g.isBGGroup then 1 else 2

/-- A new leader is picked if the old one is gone. -/
def pickLeader (w : World) (g : Group) (guid : UInt64) : Group :=
  if g.leaderGuid=guid then
    match g.memberSlots.find? fun slot => w.findPlayer slot.guid with
    | none => g
    | some slot => changeLeader w g slot.guid
  else g

/-- A group of the dungeon finder with one member left has nothing to do in its dungeon. -/
def dungeonOver (w : World) (g : Group) : Bool :=
  isLFGGroup g && decide (g.memberSlots.length=1) &&
    (decide (w.dungeonMapId=0) || !w.findPlayer g.leaderGuid ||
      (w.isAlive g.leaderGuid && decide (w.mapId g.leaderGuid≠w.dungeonMapId)))

/-- `RemoveMember`; a disbanded group is gone. -/
def removeMember (w : World) (g : Group) (guid : UInt64) (method : RemoveMethod) : Option Group :=
  if isLFGGroup g ∧ method=RemoveMethod.kick then some g
  else if g.memberSlots.length > membersNeeded g then
    let left := pickLeader w (eraseSlot { g with memberMgr := linksLeft w g guid } guid) guid
    if dungeonOver w left then none
    else if left.memberMgr.length < linksNeeded left then none
    else some left
  else none

def changeMembersGroup (g : Group) (guid : UInt64) (group : Fin MAX_RAID_SUBGROUPS) : Group :=
  if !isRaidGroup g then g
  else
    match getMemberSlot g.memberSlots guid with
    | none => g
    | some slot =>
      if slot.group=group then g
      else
        { g with
          memberSlots := updateSlot guid (fun slot => { slot with group := group }) g.memberSlots
          subGroupsCounts :=
            (g.subGroupsCounts.map (subGroupCounterIncrease group)).map
              (subGroupCounterDecrease slot.group) }

def hasFreeSlotSubGroup (g : Group) (subgroup : Fin MAX_RAID_SUBGROUPS) : Bool :=
  g.subGroupsCounts.any fun counts => (counts subgroup).toNat < MAXGROUPSIZE

/-- `HandleGroupChangeSubGroupOpcode` of a sender that may change subgroups. -/
def handleGroupChangeSubGroup (g : Group) (guid : UInt64) (groupNr : UInt8) : Group :=
  if h : groupNr.toNat < MAX_RAID_SUBGROUPS then
    if !hasFreeSlotSubGroup g ⟨groupNr.toNat,h⟩ then g
    else changeMembersGroup g guid ⟨groupNr.toNat,h⟩
  else g

def setGroupMemberFlag (g : Group) (guid : UInt64) (apply : Bool) (flag : UInt8) : Group :=
  if !isRaidGroup g then g
  else
    match getMemberSlot g.memberSlots guid with
    | none => g
    | some _ =>
      if flag=MEMBER_FLAG_MAINASSIST ∨ flag=MEMBER_FLAG_MAINTANK then
        let cleared := removeUniqueGroupMemberFlag g flag
        { cleared with
          memberSlots := updateSlot guid (toggleGroupMemberFlag flag apply) cleared.memberSlots }
      else if flag=MEMBER_FLAG_ASSISTANT then
        { g with memberSlots := updateSlot guid (toggleGroupMemberFlag flag apply) g.memberSlots }
      else g

def setEveryoneAssistant (g : Group) (active : Bool) : Group :=
  { g with
    memberSlots :=
      g.memberSlots.map fun slot =>
        if slot.guid=g.leaderGuid then slot
        else toggleGroupMemberFlag MEMBER_FLAG_ASSISTANT active slot }

def setTargetIcon (g : Group) (id : UInt8) (targetGuid : UInt64) : Group :=
  if h : id.toNat < TARGETICONCOUNT then
    let cleaned :=
      if targetGuid≠0 then fun i => if g.targetIcons i=targetGuid then 0 else g.targetIcons i
      else g.targetIcons
    { g with targetIcons := Function.update cleaned ⟨id.toNat,h⟩ targetGuid }
  else g

/-- The operations on a group. -/
inductive Op where
  | addMember (guid : UInt64)
  | removeMember (w : World) (guid : UInt64) (method : RemoveMethod)
  | changeLeader (w : World) (guid : UInt64)
  | convertToLFG
  | convertToLFR
  | convertToRaid
  | convertToGroup
  | changeSubGroup (guid : UInt64) (groupNr : UInt8)
  | setGroupMemberFlag (guid : UInt64) (apply : Bool) (flag : UInt8)
  | removeUniqueGroupMemberFlag (flag : UInt8)
  | setEveryoneAssistant (active : Bool)
  | setTargetIcon (id : UInt8) (targetGuid : UInt64)
  | login (guid : UInt64)
  | logout (guid : UInt64)

/-- One operation on a group. -/
def apply (g : Group) : Op → Option Group
  | .addMember guid => some (addMember g guid)
  | .removeMember w guid method => removeMember w g guid method
  | .changeLeader w guid => some (changeLeader w g guid)
  | .convertToLFG => some (convertToLFG g)
  | .convertToLFR => some (convertToLFR g)
  | .convertToRaid => some (convertToRaid g)
  | .convertToGroup => some (convertToGroup g)
  | .changeSubGroup guid groupNr => some (handleGroupChangeSubGroup g guid groupNr)
  | .setGroupMemberFlag guid apply flag => some (setGroupMemberFlag g guid apply flag)
  | .removeUniqueGroupMemberFlag flag => some (removeUniqueGroupMemberFlag g flag)
  | .setEveryoneAssistant active => some (setEveryoneAssistant g active)
  | .setTargetIcon id targetGuid => some (setTargetIcon g id targetGuid)
  -- `_LoadGroup` links a player that is a member; the reference goes with the player
  | .login guid => some (if IsMember g guid then { g with memberMgr := link g.memberMgr guid } else g)
  | .logout guid => some { g with memberMgr := g.memberMgr.erase guid }

/-- One operation; nothing happens to a group that is gone. -/
def step (s : Option Group) (op : Op) : Option Group := s.bind fun g => apply g op

/-- What a group is made for. -/
inductive Kind where
  | normal
  | dungeonFinder
  | raidFinder
  | battleground
  | battlefield

/-- A group that is created by its leader. -/
def start (leader : UInt64) : Kind → Group
  | .normal => create (newGroup false false) leader
  | .dungeonFinder => create (convertToLFG (newGroup false false)) leader
  | .raidFinder => create (convertToLFR (newGroup false false)) leader
  | .battleground => create (newGroup true false) leader
  | .battlefield => create (newGroup false true) leader

end Projectnelth.GroupModel
