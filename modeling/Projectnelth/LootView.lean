import Mathlib
import Projectnelth.LootRuns

/-!
# What a player sees of a loot

The packet of a loot has a row for each entry that is shown: its slot, a byte, the entry and how it
may be taken. The slots of the plain, the free-for-all and the conditional entries are their
indices; the quest entries come behind all of these, numbered by the player's own list.
-/

namespace Projectnelth.LootModel

inductive PermissionTypes where
  /-- `ALL_PERMISSION`. -/
  | all
  /-- `GROUP_PERMISSION`. -/
  | group
  /-- `MASTER_PERMISSION`. -/
  | master
  /-- `ROUND_ROBIN_PERMISSION`. -/
  | roundRobin
  /-- `OWNER_PERMISSION`. -/
  | owner
  /-- `NONE_PERMISSION`. -/
  | none
  deriving DecidableEq,Repr

inductive LootSlotType where
  /-- `LOOT_SLOT_TYPE_ALLOW_LOOT`. -/
  | allowLoot
  /-- `LOOT_SLOT_TYPE_ROLL_ONGOING`. -/
  | rollOngoing
  /-- `LOOT_SLOT_TYPE_MASTER`. -/
  | master
  /-- `LOOT_SLOT_TYPE_LOCKED`. -/
  | locked
  /-- `LOOT_SLOT_TYPE_OWNER`. -/
  | owner
  deriving DecidableEq,Repr

/-- `LootView`, with what the view reads of the viewer and of the loot beside its lists. -/
structure LootView where
  viewer : ℕ
  permission : PermissionTypes
  /-- `AllowedForPlayer`. -/
  allowed : LootItem → Bool
  /-- `GetLooterGuid` of the viewer's group. -/
  looter : Option ℕ
  /-- `roundRobinPlayer`, zero for nobody. -/
  roundRobinPlayer : ℕ
  /-- `is_underthreshold` of the entries of `items`. -/
  underthreshold : ℕ → Bool

/-- A row of the packet. -/
structure Row where
  slot : UInt8
  /-- Where the entry stands that is written. -/
  place : Place
  /-- Its `itemid`. -/
  itemid : ℕ
  /-- Its `count`. -/
  count : ℕ
  /-- How it may be taken. -/
  slotType : LootSlotType
  deriving DecidableEq,Repr

/-- What is written for a view. -/
structure LootPacket where
  gold : ℕ
  itemsShown : UInt8
  currenciesShown : UInt8
  rows : List Row
  deriving DecidableEq,Repr

namespace LootView

variable (v : LootView) (loot : Loot)

/-- The row of an entry. -/
def row (slot : ℕ) (place : Place) (item : LootItem) (slotType : LootSlotType) : Row :=
  ⟨UInt8.ofNat slot,place,item.itemid,item.count,slotType⟩

/-- The slot type of a plain entry under a permission, if the entry is displayed. -/
def plainType (index : ℕ) (item : LootItem) : Option LootSlotType :=
  match v.permission with
  | .group =>
    if item.is_blocked=true then some .rollOngoing
    else if v.roundRobinPlayer=0 ∨ v.underthreshold index=false ∨ v.viewer=v.roundRobinPlayer then
      some .allowLoot
    else none
  | .roundRobin =>
    if v.roundRobinPlayer≠0 ∧ v.viewer≠v.roundRobinPlayer then none else some .allowLoot
  | .master =>
    -- the branch for the master belongs to the inner condition
    match v.looter with
    | some looter => some (if looter≠v.viewer then .locked else .master)
    | none => some .allowLoot
  | .owner => some .owner
  | .all => some .allowLoot
  | .none => none

/-- The row of a plain entry. -/
def plainRow (index : ℕ) : Option Row :=
  match loot.get (.item index) with
  | none => none
  | some item =>
    if !item.is_looted && !item.freeforall && !item.conditional && v.allowed item then
      (v.plainType index item).map (row index (.item index) item)
    else none

def slotType : LootSlotType := if v.permission=.owner then .owner else .allowLoot

/-- The slot type of a quest or a conditional entry. -/
def ownType (item : LootItem) : LootSlotType :=
  if item.follow_loot_rules=true then
    match v.permission with
    | .master => .master
    | .group | .roundRobin => if item.is_blocked=true then .rollOngoing else .allowLoot
    | _ => v.slotType
  else v.slotType

/-- The row of an entry that the viewer has an own entry for. -/
def ownRow (kind : Kind) (slot : ℕ) (q : QuestItem) : Option Row :=
  match loot.get (kind.place q.index) with
  | none => none
  | some item =>
    if !q.is_looted && !item.is_looted then
      some (row slot (kind.place q.index) item
        (if kind=.ffa then v.slotType else v.ownType item))
    else none

/-- The rows of the plain entries. -/
def plainRows : List Row := (List.range loot.items.length).filterMap (v.plainRow loot)

/-- The rows of the quest entries, behind all others. -/
def questRows : List Row :=
  (loot.listOf .quest v.viewer).zipIdx.filterMap fun x =>
    v.ownRow loot .quest (loot.items.length+x.2) x.1

/-- The rows of the free-for-all or of the conditional entries. -/
def indexRows (kind : Kind) : List Row :=
  (loot.listOf kind v.viewer).filterMap fun q => v.ownRow loot kind q.index q

/-- All rows that are shown. -/
def rows : List Row :=
  v.plainRows loot++v.questRows loot++v.indexRows loot .ffa++v.indexRows loot .conditional

/-- `operator<<` of a view. -/
def write : LootPacket :=
  if v.permission=.none then ⟨0,0,0,[]⟩
  else ⟨loot.gold,UInt8.ofNat (v.rows loot).length,0,v.rows loot⟩

end LootView

/-- The slots of a loot mean one thing, wherever they are read. -/
structure SlotsAgree (v : LootView) (loot : Loot) : Prop where
  distinct : ((v.write loot).rows.map Row.slot).Nodup
  count : (v.write loot).itemsShown.toNat=(v.write loot).rows.length
  /-- A slot that is written is below the greatest one, and gives the entry written beside it. -/
  found : ∀ row∈(v.write loot).rows,row.slot.toNat < loot.maxSlotFor v.viewer ∧
    (∃ pick∈loot.lootItemInSlot row.slot.toNat v.viewer,pick.place=row.place) ∧
    ∃ item∈loot.get row.place,item.itemid=row.itemid ∧ item.count=row.count
  /-- The currency loop examines no entry that is not there. -/
  inside : ∀ slot < loot.maxSlotFor v.viewer,(loot.get (loot.placeOf slot)).isSome=true
  examined : ∀ slot < loot.maxSlotFor v.viewer,
    loot.requested v.viewer slot=some (loot.placeOf slot)

end Projectnelth.LootModel
