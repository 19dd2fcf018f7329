import Mathlib
import Projectnelth.GuildRankModel

/-!
# Moving items inside a guild bank

The tabs hold pointers to item objects. A move reserves space against the tabs
as they are, then takes the item from its slot and stores it by the reservation;
logs, packets and the database are left out.
-/

namespace Projectnelth.GuildBankItemModel

open GuildRankModel

def GUILD_BANK_MAX_TABS : ℕ := 8

def GUILD_BANK_MAX_SLOTS : ℕ := 98

def NULL_SLOT : ℕ := 255

def GUILD_BANK_RIGHT_VIEW_TAB : UInt8 := 0x01

def GUILD_BANK_RIGHT_DEPOSIT_ITEM : UInt8 := GUILD_BANK_RIGHT_VIEW_TAB ||| 0x02

def GUILD_WITHDRAW_SLOT_UNLIMITED : UInt32 := 0xFFFFFFFF

/-- An item object. -/
structure Item where
  /-- `GetEntry`. -/
  entry : UInt32
  /-- `GetCount`. -/
  count : UInt32
  /-- `IsSoulBound`. -/
  soulBound : Bool
  deriving DecidableEq

/-- `GuildBankRightsAndSlots`. -/
structure RightsAndSlots where
  /-- `GetRights`. -/
  rights : UInt8
  /-- `GetSlots`. -/
  slots : UInt32

/-- A tab and a slot in it. -/
abbrev Place := ℕ×ℕ

/-- The guild with the tabs of its bank. -/
structure Bank where
  /-- The ranks and the members. -/
  guild : Guild
  /-- `m_bankTabRightsAndSlots` of the ranks. -/
  rightsAndSlots : UInt8 → ℕ → RightsAndSlots
  /-- `m_bankWithdraw` of the members. -/
  bankWithdraw : UInt32 → ℕ → Int32
  /-- `Stackable` of the item templates. -/
  stackable : UInt32 → Int32
  /-- `_GetPurchasedTabsSize`. -/
  tabs : ℕ
  /-- `m_items` of the tabs. -/
  items : Place → Option ℕ
  /-- The objects that the pointers lead to. -/
  objects : ℕ → Item
  /-- The pointer that the next object gets. -/
  next : ℕ

structure ItemPosCount where
  pos : ℕ
  /-- How many of the stack. -/
  count : UInt32

/-- `InventoryResult`, those of a guild bank. -/
inductive InventoryResult where
  | dropBoundItem
  | wrongBagType
  | cantStack
  | bankFull

/-- `ItemTemplate::GetMaxStackSize`. -/
def getMaxStackSize (stackable : Int32) : UInt32 :=
  if stackable=2147483647 ∨ stackable ≤ 0 then 0x7FFFFFFF-1 else stackable.toUInt32

def getMaxStackCount (b : Bank) (entry : UInt32) : UInt32 := getMaxStackSize (b.stackable entry)

def getItem (b : Bank) (place : Place) : Option ℕ :=
  if place.1 < b.tabs ∧ place.2 < GUILD_BANK_MAX_SLOTS then b.items place else none

/-- `SetItem` of a tab, if there is the tab. -/
def setItem (b : Bank) (place : Place) (item : Option ℕ) : Bank :=
  if place.1 < b.tabs ∧ place.2 < GUILD_BANK_MAX_SLOTS then
    { b with items := Function.update b.items place item }
  else b

def setCount (b : Bank) (item : ℕ) (count : UInt32) : Bank :=
  { b with objects := Function.update b.objects item { b.objects item with count := count } }

/-- `Item::CloneItem`. -/
def cloneItem (b : Bank) (item : ℕ) (count : UInt32) : Option (Bank×ℕ) :=
  if count < 1 then none
  else
    let max := getMaxStackCount b (b.objects item).entry
    let clone := { b.objects item with count := if max < count then max else count }
    some ({ b with objects := Function.update b.objects b.next clone, next := b.next+1 },b.next)

def getRankBankTabRights (b : Bank) (rankId : UInt8) (tabId : ℕ) : UInt8 :=
  match getRankInfo b.guild rankId with
  | some _ => if tabId < GUILD_BANK_MAX_TABS then (b.rightsAndSlots rankId tabId).rights else 0
  | none => 0

def getRankBankTabSlotsPerDay (b : Bank) (rankId : UInt8) (tabId : ℕ) : Int32 :=
  if tabId < b.tabs then
    match getRankInfo b.guild rankId with
    | some _ =>
      if tabId < GUILD_BANK_MAX_TABS then (b.rightsAndSlots rankId tabId).slots.toInt32 else 0
    | none => 0
  else 0

/-- `GetBankWithdrawValue` of a tab. -/
def getBankWithdrawValue (b : Bank) (member : Member) (tabId : ℕ) : Int32 :=
  if member.rankId=GR_GUILDMASTER then GUILD_WITHDRAW_SLOT_UNLIMITED.toInt32
  else b.bankWithdraw member.guid tabId

def getMemberRemainingSlots (b : Bank) (member : Member) (tabId : ℕ) : Int32 :=
  if member.rankId=GR_GUILDMASTER then GUILD_WITHDRAW_SLOT_UNLIMITED.toInt32
  else if (getRankBankTabRights b member.rankId tabId &&& GUILD_BANK_RIGHT_VIEW_TAB).toUInt32 !=
      GR_RIGHT_EMPTY then
    let remaining := getRankBankTabSlotsPerDay b member.rankId tabId-
      getBankWithdrawValue b member tabId
    if 0 < remaining then remaining else 0
  else 0

def updateMemberWithdrawSlots (b : Bank) (player : UInt32) (tabId : ℕ) : Bank :=
  match getMember b.guild player with
  | some member =>
    if member.rankId≠GR_GUILDMASTER ∧
        getBankWithdrawValue b member tabId < getRankBankTabSlotsPerDay b member.rankId tabId then
      let withdrawn := b.bankWithdraw member.guid
      let counted := Function.update withdrawn tabId (withdrawn tabId+1)
      { b with bankWithdraw := Function.update b.bankWithdraw member.guid counted }
    else b
  | none => b

def memberHasTabRights (b : Bank) (player : UInt32) (tabId : ℕ) (rights : UInt8) : Bool :=
  match getMember b.guild player with
  | some member =>
    if member.rankId=GR_GUILDMASTER ∨ b.guild.leaderGuid=player then true
    else getRankBankTabRights b member.rankId tabId &&& rights == rights
  | none => false

structure BankMoveItemData where
  /-- `m_container` and `m_slotId`. -/
  place : Place
  /-- `m_pItem`. -/
  item : Option ℕ
  /-- `m_pClonedItem`. -/
  clonedItem : Option ℕ

def initItem (b : Bank) (d : BankMoveItemData) : BankMoveItemData :=
  { d with item := getItem b d.place }

def hasStoreRights (b : Bank) (player : UInt32) (d other : BankMoveItemData) : Bool :=
  if other.place.1=d.place.1 then true
  else memberHasTabRights b player d.place.1 GUILD_BANK_RIGHT_DEPOSIT_ITEM

def hasWithdrawRights (b : Bank) (player : UInt32) (d other : BankMoveItemData) : Bool :=
  if other.place.1=d.place.1 then true
  else match getMember b.guild player with
    | some member => getMemberRemainingSlots b member d.place.1 != 0
    | none => false

/-- `m_vec` and the count that is still without a place. -/
abbrev Plan := List ItemPosCount×UInt32

def reserveSpace (b : Bank) (slotId item : ℕ) (dest : Option ℕ) (plan : Plan) : Option Plan :=
  let max := getMaxStackCount b (b.objects item).entry
  let free := match dest with
    | some destItem =>
      if (b.objects destItem).entry≠(b.objects item).entry ∨ max ≤ (b.objects destItem).count then
        none
      else some (max-(b.objects destItem).count)
    | none => some max
  free.map fun requiredSpace =>
    let required := min requiredSpace plan.2
    if slotId∈plan.1.map ItemPosCount.pos then plan
    else (plan.1++[⟨slotId,required⟩],plan.2-required)

/-- `CanStoreItemInTab`, from a list of slots on. -/
def canStoreItemInTab (b : Bank) (tabId item skipSlotId : ℕ) (merge : Bool) : List ℕ → Plan → Plan
  | [],plan => plan
  | slotId::slots,plan =>
    if plan.2=0 then plan
    else if slotId=skipSlotId then canStoreItemInTab b tabId item skipSlotId merge slots plan
    else
      let dest := if getItem b (tabId,slotId)=some item then none else getItem b (tabId,slotId)
      if dest.isSome≠merge then canStoreItemInTab b tabId item skipSlotId merge slots plan
      else canStoreItemInTab b tabId item skipSlotId merge slots
        ((reserveSpace b slotId item dest plan).getD plan)

/-- The search for stacks to merge with, then for free slots. -/
def canStoreInTab (b : Bank) (d : BankMoveItemData) (item : ℕ) (plan : Plan) :
    Except InventoryResult (List ItemPosCount) :=
  let slots := List.range GUILD_BANK_MAX_SLOTS
  let merged :=
    if 1 < getMaxStackCount b (b.objects item).entry then
      canStoreItemInTab b d.place.1 item d.place.2 true slots plan
    else plan
  let stored := canStoreItemInTab b d.place.1 item d.place.2 false slots merged
  if stored.2=0 then .ok stored.1 else .error .bankFull

/-- `CanStore`: `m_vec`, or the error. -/
def canStore (b : Bank) (d : BankMoveItemData) (item : ℕ) (swap : Bool) :
    Except InventoryResult (List ItemPosCount) :=
  if (b.objects item).soulBound then .error .dropBoundItem
  else if b.tabs ≤ d.place.1 then .error .wrongBagType
  else if d.place.2≠NULL_SLOT then
    let dest := if getItem b d.place=some item ∨ swap then none else getItem b d.place
    match reserveSpace b d.place.2 item dest ([],(b.objects item).count) with
    | none => .error .cantStack
    | some plan => if plan.2=0 then .ok plan.1 else canStoreInTab b d item plan
  else canStoreInTab b d item ([],(b.objects item).count)

def removeItem (b : Bank) (player : UInt32) (d other : BankMoveItemData)
    (splitedAmount : UInt32) : Bank :=
  let removed := match d.item with
    | some item =>
      if splitedAmount≠0 then setCount b item ((b.objects item).count-splitedAmount)
      else setItem b d.place none
    | none => b
  if other.place.1≠d.place.1 then updateMemberWithdrawSlots removed player d.place.1 else removed

/-- `_StoreItem`. -/
def storeItemAt (b : Bank) (tabId item : ℕ) (pos : ItemPosCount) (clone : Bool) : Bank :=
  match getItem b (tabId,pos.pos) with
  | some destItem => setCount b destItem ((b.objects destItem).count+pos.count)
  | none =>
    if clone then
      match cloneItem b item pos.count with
      | some (cloned,newItem) => setItem cloned (tabId,pos.pos) (some newItem)
      | none => b
    else setItem (setCount b item pos.count) (tabId,pos.pos) (some item)

/-- `StoreItem`: all but the last position get clones. -/
def storeItem (b : Bank) (tabId item : ℕ) : List ItemPosCount → Bank
  | [] => b
  | [pos] => storeItemAt b tabId item pos false
  | pos::next::vec => storeItem (storeItemAt b tabId item pos true) tabId item (next::vec)

def doItemsMove (b : Bank) (player : UInt32) (src dest : BankMoveItemData)
    (splitedAmount : UInt32) : Bank×Bool :=
  match if splitedAmount≠0 then src.clonedItem else src.item with
  | none => (b,false)
  | some srcItem =>
    match canStore b dest srcItem dest.item.isSome with
    | .error _ => (b,false)
    | .ok destVec =>
      match dest.item with
      | none =>
        let removed := removeItem b player src dest splitedAmount
        (storeItem removed dest.place.1 srcItem destVec,true)
      | some destItem =>
        match canStore b src destItem true with
        | .error _ => (b,false)
        | .ok srcVec =>
          let removed := removeItem (removeItem b player src dest splitedAmount) player dest src 0
          (storeItem (storeItem removed dest.place.1 srcItem destVec) src.place.1 destItem
            srcVec,true)

/-- The second try of `_MoveItems`, to swap the items. -/
def swapMove (b : Bank) (player : UInt32) (src dest : BankMoveItemData) : Bank×Bool :=
  let dest := initItem b dest
  if dest.item.isNone then (b,false)
  else if !hasStoreRights b player src dest then (b,false)
  else if !hasWithdrawRights b player dest src then (b,false)
  else doItemsMove b player src dest 0

/-- `_MoveItems`; the flag says that items have been moved. -/
def moveItems (b : Bank) (player : UInt32) (src dest : BankMoveItemData)
    (splitedAmount : UInt32) : Bank×Bool :=
  let src := initItem b src
  match src.item with
  | none => (b,false)
  | some item =>
    if (b.objects item).count < splitedAmount then (b,false)
    else
      let splited := if splitedAmount=(b.objects item).count then 0 else splitedAmount
      if !hasStoreRights b player dest src then (b,false)
      else if !hasWithdrawRights b player src dest then (b,false)
      else if splited≠0 then
        match cloneItem b item splited with
        | none => (b,false)
        | some (cloned,newItem) =>
          doItemsMove cloned player { src with clonedItem := some newItem } dest splited
      else
        match doItemsMove b player src dest 0 with
        | (moved,true) => (moved,true)
        | (same,false) => swapMove same player src dest

def swapItems (b : Bank) (player : UInt32) (place destPlace : Place) (splitedAmount : UInt32) :
    Bank×Bool :=
  if b.tabs ≤ place.1 ∨ GUILD_BANK_MAX_SLOTS ≤ place.2 ∨ b.tabs ≤ destPlace.1 ∨
      GUILD_BANK_MAX_SLOTS ≤ destPlace.2 then (b,false)
  else if place=destPlace then (b,false)
  else moveItems b player ⟨place,none,none⟩ ⟨destPlace,none,none⟩ splitedAmount

end Projectnelth.GuildBankItemModel
