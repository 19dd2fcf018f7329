import Mathlib
import Projectnelth.KeyedList
import Projectnelth.PlayerMoney
import Projectnelth.RunInvariant

/-!
# Void storage

A player pays a fee to put items of the inventory away in one of 80 slots, where a short
record stands for the item, and has items made from the records again. One request deposits
and withdraws; another one moves a record to a slot that the packet names.
-/

namespace Projectnelth.VoidStorageModel

open KeyedList PlayerMoney

def VOID_STORAGE_MAX_SLOT : ℕ := 80
def VOID_STORAGE_MAX_DEPOSIT : ℕ := 9
def VOID_STORAGE_MAX_WITHDRAW : ℕ := 9
def VOID_STORAGE_STORE_ITEM : ℕ := 25*10000
def INVENTORY_SLOT_BAG_0 : ℕ := 255
def INVENTORY_SLOT_BAG_START : ℕ := 19
def INVENTORY_SLOT_BAG_END : ℕ := 23
def INVENTORY_SLOT_ITEM_START : ℕ := 23
def INVENTORY_SLOT_ITEM_END : ℕ := 39

/-- What tells items of one kind apart. -/
structure Good where
  /-- `GetEntry`. -/
  entry : UInt32
  /-- `ITEM_FIELD_CREATOR`. -/
  creator : UInt64
  /-- `GetItemRandomPropertyId`. -/
  randomPropertyId : Int32
  /-- `GetItemSuffixFactor`. -/
  suffixFactor : UInt32
  deriving DecidableEq

structure Item where
  /-- `GetGUID`. -/
  guid : ℕ
  /-- What kind of item it is. -/
  good : Good
  /-- `GetCount`. -/
  count : ℕ
  /-- `GetBagSlot` and `GetSlot`. -/
  pos : ℕ×ℕ
  /-- `GetBagSize`, where it is a bag. -/
  bagSize : ℕ
  deriving DecidableEq

structure VoidStorageItem where
  itemId : ℕ
  itemEntry : UInt32
  creatorGuid : UInt32
  itemRandomPropertyId : UInt32
  itemSuffixFactor : UInt32
  deriving DecidableEq

/-- A slot of the void storage. -/
abbrev VoidSlot := Fin VOID_STORAGE_MAX_SLOT

/-- The part of `Player` that void storage reads and writes. -/
structure Player where
  /-- The items that `GetItemByGuid` can find. -/
  items : List Item
  voidStorageItems : VoidSlot → Option VoidStorageItem
  /-- `GetMoney`. -/
  money : UInt64
  /-- `IsVoidStorageUnlocked`. -/
  unlocked : Bool
  nextGuid : ℕ
  /-- The next `GenerateVoidStorageItemId`. -/
  nextItemId : ℕ

/-- Where one unit can be stored. -/
inductive Place where
  /-- On the stack of the guid. -/
  | stack (guid : ℕ)
  /-- In an empty place. -/
  | empty (pos : ℕ×ℕ)
  deriving DecidableEq

/-- What the rest of the server answers. -/
structure World where
  /-- `CanStoreNewItem` for one unit. -/
  canStoreNewItem : List Item → UInt32 → Option Place
  stack_there : ∀ {items entry guid}, canStoreNewItem items entry=some (.stack guid) →
    ∃ i, lookup Item.guid guid items=some i ∧ i.good.entry=entry
  place_empty : ∀ {items entry pos}, canStoreNewItem items entry=some (.empty pos) →
    ∀ i∈items, i.pos≠pos
  /-- `ContainerSlots` of the template. -/
  containerSlots : UInt32 → ℕ
  /-- `sItemRandomPropertiesStore` has the entry. -/
  randomProperties : ℕ → Bool
  /-- `sItemRandomSuffixStore` has the entry. -/
  randomSuffix : ℕ → Bool
  generateEnchSuffixFactor : UInt32 → UInt32

namespace Player

def getItemByGuid (p : Player) (guid : ℕ) : Option Item := lookup Item.guid guid p.items

def getItemByPos (p : Player) (pos : ℕ×ℕ) : Option Item := lookup Item.pos pos p.items

/-- The other item is in the bag. -/
def inside (bag item : Item) : Bool :=
  bag.bagSize≠0 && bag.pos.1=INVENTORY_SLOT_BAG_0 && item.pos.1=bag.pos.2

/-- `DestroyItem`: what is in a bag is destroyed with it. -/
def destroyItem (p : Player) (pos : ℕ×ℕ) : Player :=
  match p.getItemByPos pos with
  | none => p
  | some bag => { p with items := p.items.filter fun i => i.pos≠pos && !inside bag i }

/-- The free places of an equipped bag. -/
def freeSlots (p : Player) (i : ℕ) : ℕ :=
  match p.getItemByPos (INVENTORY_SLOT_BAG_0,i) with
  | none => 0
  | some bag =>
    ((List.range bag.bagSize).filter fun j => (p.getItemByPos (i,j)).isNone).length

/-- The free places in the bags and in the backpack. -/
def freeBagSlots (p : Player) : ℕ :=
  ((List.range' INVENTORY_SLOT_BAG_START
    (INVENTORY_SLOT_BAG_END-INVENTORY_SLOT_BAG_START)).map p.freeSlots).sum+
    ((List.range' INVENTORY_SLOT_ITEM_START
      (INVENTORY_SLOT_ITEM_END-INVENTORY_SLOT_ITEM_START)).filter fun i =>
        (p.getItemByPos (INVENTORY_SLOT_BAG_0,i)).isNone).length

/-- The void slots that are not used. -/
def voidStorageFree (p : Player) : List VoidSlot :=
  (List.finRange VOID_STORAGE_MAX_SLOT).filter fun i => (p.voidStorageItems i).isNone

def getNextVoidStorageFreeSlot (p : Player) : Option VoidSlot := p.voidStorageFree.head?

def getNumOfVoidStorageFreeSlots (p : Player) : ℕ := p.voidStorageFree.length

def addVoidStorageItem (p : Player) (item : VoidStorageItem) : Player :=
  match p.getNextVoidStorageFreeSlot with
  | none => p
  | some slot =>
    { p with voidStorageItems := Function.update p.voidStorageItems slot (some item) }

def deleteVoidStorageItem (p : Player) (slot : VoidSlot) : Player :=
  { p with voidStorageItems := Function.update p.voidStorageItems slot none }

/-- `GetVoidStorageItem` by the id. -/
def getVoidStorageItem (p : Player) (id : ℕ) : Option (VoidSlot×VoidStorageItem) :=
  (List.finRange VOID_STORAGE_MAX_SLOT).findSome? fun i =>
    match p.voidStorageItems i with
    | none => none
    | some item => if item.itemId=id then some (i,item) else none

def swapVoidStorageItem (p : Player) (oldSlot newSlot : UInt8) : Option Player :=
  if h : oldSlot.toNat < VOID_STORAGE_MAX_SLOT ∧ newSlot.toNat < VOID_STORAGE_MAX_SLOT ∧
      oldSlot≠newSlot then
    let old : VoidSlot := ⟨oldSlot.toNat,h.1⟩
    let new : VoidSlot := ⟨newSlot.toNat,h.2.1⟩
    let moved := Function.update p.voidStorageItems new (p.voidStorageItems old)
    some { p with voidStorageItems := Function.update moved old (p.voidStorageItems new) }
  else none

def hasEnoughMoney (p : Player) (amount : UInt64) : Bool := amount ≤ p.money

end Player

/-- `SetItemRandomProperties` on a new item: the random property and the suffix factor. -/
def setItemRandomProperties (w : World) (entry : UInt32) (randomPropId : Int32) :
    Int32×UInt32 :=
  if randomPropId=0 then (0,0)
  else if 0 < randomPropId then
    if w.randomProperties randomPropId.toInt.toNat then (randomPropId,0) else (0,0)
  else
    if w.randomSuffix (-randomPropId.toInt).toNat then
      (randomPropId,w.generateEnchSuffixFactor entry)
    else (0,0)

namespace Player

/-- `StoreNewItem` for one unit, and the creator that is set on what it returns. The item that is
made has a guid of its own also where it goes onto a stack. -/
def storeNewItem (p : Player) (w : World) (place : Place) (itemVS : VoidStorageItem) : Player :=
  let creator := itemVS.creatorGuid.toUInt64
  match place with
  | .stack guid =>
    match p.getItemByGuid guid with
    | none => p
    | some i =>
      let stored : Item := { i with good := { i.good with creator := creator }, count := i.count+1 }
      { p with items := replace Item.guid stored p.items, nextGuid := p.nextGuid+1 }
  | .empty pos =>
    let made := setItemRandomProperties w itemVS.itemEntry itemVS.itemRandomPropertyId.toInt32
    let good : Good := ⟨itemVS.itemEntry,creator,made.1,made.2⟩
    let item : Item := ⟨p.nextGuid,good,1,pos,w.containerSlots itemVS.itemEntry⟩
    { p with items := p.items++[item], nextGuid := p.nextGuid+1 }

/-- The record that stands for an item. -/
def voidRecord (p : Player) (item : Item) : VoidStorageItem :=
  ⟨p.nextItemId,item.good.entry,item.good.creator.toUInt32,
    item.good.randomPropertyId.toUInt32,item.good.suffixFactor⟩

/-- One deposit. -/
def deposit (p : Player) (item : Item) : Player :=
  ({ p with nextItemId := p.nextItemId+1 }.addVoidStorageItem (p.voidRecord item)).destroyItem
    item.pos

/-- One turn of the loop over the items to deposit, with the count of deposits. -/
def depositTurn (s : Player×ℕ) (guid : ℕ) : Player×ℕ :=
  match s.1.getItemByGuid guid with
  | none => s
  | some item => (s.1.deposit item,s.2+1)

/-- One withdrawal. -/
def withdraw (p : Player) (w : World) (place : Place) (slot : VoidSlot)
    (itemVS : VoidStorageItem) : Player :=
  (p.storeNewItem w place itemVS).deleteVoidStorageItem slot

/-- One turn of the loop over the ids to withdraw; a refusal ends the loop. -/
def withdrawTurn (w : World) (p : Player) (id : ℕ) : Except Player Player :=
  match p.getVoidStorageItem id with
  | none => .ok p
  | some (slot,itemVS) =>
    match w.canStoreNewItem p.items itemVS.itemEntry with
    | none => .error p
    | some place => .ok (p.withdraw w place slot itemVS)

/-- The loop over the ids to withdraw. -/
def withdrawAll (w : World) : Player → List ℕ → Except Player Player
  | p,[] => .ok p
  | p,id::ids =>
    match withdrawTurn w p id with
    | .ok p' => withdrawAll w p' ids
    | .error p' => .error p'

/-- What a client asks to move. -/
structure Transfer where
  /-- The player can interact with the vault keeper. -/
  npc : Bool
  itemGuids : List ℕ
  itemIds : List ℕ
  deriving DecidableEq

/-- What is sent back. -/
inductive Reply where
  /-- Nothing. -/
  | silent
  /-- `VOID_TRANSFER_ERROR_FULL`. -/
  | full
  /-- `VOID_TRANSFER_ERROR_INVENTORY_FULL`. -/
  | inventoryFull
  /-- `VOID_TRANSFER_ERROR_NOT_ENOUGH_MONEY`. -/
  | notEnoughMoney
  /-- `SMSG_VOID_STORAGE_TRANSFER_CHANGES`. -/
  | changes
  deriving DecidableEq

/-- What the handler refuses before it does anything. -/
def refuses (p : Player) (t : Transfer) : Option Reply :=
  if VOID_STORAGE_MAX_DEPOSIT < t.itemGuids.length ∨
      VOID_STORAGE_MAX_WITHDRAW < t.itemIds.length then some .silent
  else if !t.npc || !p.unlocked then some .silent
  else if p.getNumOfVoidStorageFreeSlots < t.itemGuids.length then some .full
  else if p.freeBagSlots < t.itemIds.length then some .inventoryFull
  else if !p.hasEnoughMoney (.ofNat (t.itemGuids.length*VOID_STORAGE_STORE_ITEM)) then
    some .notEnoughMoney
  else none

/-- The deposits of a request, and how many there were. -/
def depositAll (p : Player) (t : Transfer) : Player×ℕ :=
  RunInvariant.run depositTurn (p,0) t.itemGuids

/-- `ModifyMoney`. -/
def pay (p : Player) (cost : UInt64) : Player :=
  { p with money := (ModifyMoney p.money (-cost.toInt64)).1 }

def handleVoidStorageTransfer (w : World) (p : Player) (t : Transfer) : Player×Reply :=
  match p.refuses t with
  | some reply => (p,reply)
  | none =>
    let s := p.depositAll t
    let cost := UInt64.ofNat (s.2*VOID_STORAGE_STORE_ITEM)
    if !s.1.hasEnoughMoney cost then (s.1,.notEnoughMoney)
    else
      match (s.1.pay cost).withdrawAll w t.itemIds with
      | .error p' => (p',.inventoryFull)
      | .ok p' => (p',.changes)

/-- What a client asks to swap. -/
structure Swap where
  /-- The player can interact with the vault keeper. -/
  npc : Bool
  itemId : ℕ
  newSlot : UInt32
  deriving DecidableEq

/-- `HandleVoidSwapItem`. The number of the new slot is cut to 8 bits in the calls. -/
def handleVoidSwapItem (p : Player) (s : Swap) : Player :=
  if !s.npc || !p.unlocked then p
  else
    match p.getVoidStorageItem s.itemId with
    | none => p
    | some (oldSlot,_) =>
      (p.swapVoidStorageItem (.ofNat oldSlot.val) s.newSlot.toUInt8).getD p

/-- A request of the client. -/
inductive Action where
  /-- `CMSG_VOID_STORAGE_TRANSFER`. -/
  | transfer (t : Transfer)
  /-- `CMSG_VOID_SWAP_ITEM`. -/
  | swap (s : Swap)
  deriving DecidableEq

/-- One request. -/
def step (w : World) (p : Player) : Action → Player
  | .transfer t => (p.handleVoidStorageTransfer w t).1
  | .swap s => p.handleVoidSwapItem s

end Player

end Projectnelth.VoidStorageModel
