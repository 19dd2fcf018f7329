import Mathlib
import Projectnelth.KeyedList

/-!
# Loot

A loot holds plain entries and quest entries. What a player may take of the free-for-all, the
conditional and the quest entries stands in a list of its own for each kind. An entry leaves by
`StoreLootItem`, by the hand of the master looter or by the award of a roll; each of them marks
the entry, the player's own entry or both, and takes one from `unlootedCount`. What a player may
see and carry, and what the instance lets drop, comes with the operations.
-/

namespace Projectnelth.LootModel

open KeyedList

/-- The kinds of the entries that players have of their own. -/
inductive Kind where
  /-- `PlayerQuestItems`. -/
  | quest
  /-- `PlayerFFAItems`. -/
  | ffa
  /-- `PlayerNonQuestNonFFAConditionalItems`. -/
  | conditional
  deriving DecidableEq,Repr

/-- Where an entry stands. -/
inductive Place where
  /-- An index of `items`. -/
  | item (index : ℕ)
  /-- An index of `quest_items`. -/
  | quest (index : ℕ)
  deriving DecidableEq,Repr

/-- The entry that a player's own entry is about. -/
def Kind.place : Kind → ℕ → Place
  | .quest => .quest
  | .ffa => .item
  | .conditional => .item

/-- `ItemTemplate`, as far as loot reads it. -/
structure ItemTemplate where
  /-- `GetMaxStackSize`. -/
  maxStackSize : ℕ
  /-- `ITEM_PROTO_FLAG_PARTY_LOOT`. -/
  partyLoot : Bool
  /-- `ITEM_FLAGS_CU_FOLLOW_LOOT_RULES`. -/
  followLootRules : Bool
  deriving DecidableEq,Repr

/-- `LootStoreItem`: a template's entry that was rolled. -/
structure LootStoreItem where
  itemid : ℕ
  maxcount : ℕ
  needs_quest : Bool
  /-- Whether `conditions` is not empty. -/
  conditional : Bool
  deriving DecidableEq,Repr

structure LootItem where
  itemid : ℕ
  /-- Whether `conditions` is not empty. -/
  conditional : Bool
  /-- `count`, a byte. -/
  count : ℕ
  is_looted : Bool
  is_blocked : Bool
  freeforall : Bool
  is_counted : Bool
  follow_loot_rules : Bool
  deriving DecidableEq,Repr

/-- `QuestItem`: an entry of a player's own list. -/
structure QuestItem where
  /-- The player whose list it is in. -/
  player : ℕ
  index : ℕ
  is_looted : Bool
  deriving DecidableEq,Repr

/-- A list holds no index twice. -/
def QuestItem.key (q : QuestItem) : ℕ×ℕ := (q.player,q.index)

/-- An item was stored in an inventory. -/
structure Grant where
  /-- The entry of the loot. -/
  place : Place
  player : ℕ
  /-- How many. -/
  count : ℕ
  deriving DecidableEq,Repr

/-- `Loot`, and what was stored out of it. -/
structure Loot where
  items : List LootItem
  quest_items : List LootItem
  gold : ℕ
  unlootedCount : UInt8
  /-- The lists of the players, of each kind. A player without entries has no list. -/
  lists : Kind → List QuestItem
  /-- What was stored, the latest first. -/
  given : List Grant

/-- A loot before it is filled. -/
def Loot.empty (gold : ℕ) : Loot := ⟨[],[],gold,0,fun _ => [],[]⟩

def Loot.isLooted (loot : Loot) : Bool := loot.gold=0 && loot.unlootedCount=0

/-- The entry at a place. -/
def Loot.get (loot : Loot) : Place → Option LootItem
  | .item i => loot.items[i]?
  | .quest i => loot.quest_items[i]?

/-- A write to the entry at a place. -/
def Loot.modify (loot : Loot) (f : LootItem → LootItem) : Place → Loot
  | .item i => {loot with items := loot.items.modify i f}
  | .quest i => {loot with quest_items := loot.quest_items.modify i f}

/-- The entry of a player in one of the lists. -/
def Loot.own (loot : Loot) (kind : Kind) (player index : ℕ) : Option QuestItem :=
  lookup QuestItem.key (player,index) (loot.lists kind)

/-- The list of a player. -/
def Loot.listOf (loot : Loot) (kind : Kind) (player : ℕ) : List QuestItem :=
  (loot.lists kind).filter (·.player=player)

/-! ## Filling -/

def MAX_NR_LOOT_ITEMS : ℕ := 16

def MAX_NR_QUEST_ITEMS : ℕ := 32

/-- The constructor of `LootItem`, with the count and the item that the instance lets drop. -/
def newLootItem (proto : ItemTemplate) (li : LootStoreItem) (itemid count : ℕ) : LootItem :=
  ⟨itemid,li.conditional,count,false,false,proto.partyLoot,false,proto.followLootRules⟩

/-- The loop of `AddItem` over the stacks that remain. Of each stack the instance refuses the
drop or gives the item that drops. -/
def addStacks (proto : ItemTemplate) (li : LootStoreItem) (drop : ℕ → Option ℕ) :
    ℕ → ℕ → Loot → Loot
  | 0,_,loot => loot
  | bases+1,minmax,loot =>
    let target := if li.needs_quest=true then loot.quest_items else loot.items
    let limit := if li.needs_quest=true then MAX_NR_QUEST_ITEMS else MAX_NR_LOOT_ITEMS
    if target.length < limit then
      let count := min minmax proto.maxStackSize%256
      let dropped :=
        match drop bases with
        | none => (minmax,loot)
        | some itemid =>
          let item := newLootItem proto li itemid count
          (minmax-count,
            if li.needs_quest=true then {loot with quest_items := loot.quest_items++[item]}
            else {loot with items := loot.items++[item]})
      addStacks proto li drop bases dropped.1
        (if li.needs_quest=false ∧ li.conditional=false ∧ proto.partyLoot=false then
          {dropped.2 with unlootedCount := dropped.2.unlootedCount+1}
        else dropped.2)
    else addStacks proto li drop bases minmax loot

/-- A call of `AddItem`. -/
structure Rolled where
  proto : Option ItemTemplate
  li : LootStoreItem
  /-- What `urand` gives for the count. -/
  random : ℕ
  /-- What the instance lets drop for each of the stacks. -/
  drop : ℕ → Option ℕ

def Loot.addItem (loot : Loot) (r : Rolled) : Loot :=
  match r.proto with
  | none => loot
  | some proto =>
    let minmax := if r.li.maxcount ≤ 1 then 1 else r.random
    let bases := minmax/proto.maxStackSize
    let bases := if minmax%proto.maxStackSize≠0 ∨ bases=0 then bases+1 else bases
    addStacks proto r.li r.drop bases minmax loot

inductive LootMethod where
  | freeForAll
  | roundRobin
  | masterLoot
  | groupLoot
  | needBeforeGreed
  deriving DecidableEq,Repr

/-- A player that looks into the loot. -/
structure Viewer where
  player : ℕ
  /-- `AllowedForPlayer`. -/
  allowed : LootItem → Bool
  method : Option LootMethod
  /-- Whether the player is the looter of the group. -/
  looter : Bool
  /-- `presentAtLooting`. -/
  present : Bool
  /-- `IsCurrencyToken`. -/
  currency : LootItem → Bool
  /-- `CanStoreNewItem` for what is in a slot. -/
  canStore : ℕ → Bool

/-- An entry that follows the loot rules is shown to a player of a group that is not under
master loot, and to the master looter. -/
def Viewer.rules (w : Viewer) (item : LootItem) : Bool :=
  item.follow_loot_rules && w.method.any fun method =>
    (method=.masterLoot && w.looter) || method≠.masterLoot

/-- How the entries of a kind are listed for a player. -/
structure Filling where
  kind : Kind
  /-- Whether an entry is listed. -/
  wanted : LootItem → Bool
  /-- Whether a listed entry is counted. -/
  counted : LootItem → Bool
  /-- What becomes of a listed entry. -/
  note : LootItem → LootItem

/-- An entry is listed for a player. -/
def Loot.enter (f : Filling) (player : ℕ) (loot : Loot) (index : ℕ) : Loot :=
  match loot.get (f.kind.place index) with
  | none => loot
  | some item =>
    {loot.modify f.note (f.kind.place index) with
      lists := Function.update loot.lists f.kind (loot.lists f.kind++[⟨player,index,false⟩])
      unlootedCount := loot.unlootedCount+if f.counted item=true then 1 else 0}

/-- The indices of the entries that a player gets in a list. -/
def Loot.wantedBy (loot : Loot) (f : Filling) (size : ℕ) : List ℕ :=
  (List.range size).filter fun i => (loot.get (f.kind.place i)).any f.wanted

/-- The filling of `FillQuestLoot`. -/
def questFilling (w : Viewer) : Filling where
  kind := .quest
  wanted item := !item.is_looted && (w.allowed item || w.rules item)
  counted item := item.freeforall || !item.is_blocked
  note item :=
    if w.method=some .groupLoot ∨ w.method=some .roundRobin then item
    else {item with is_blocked := true}

/-- `FillQuestLoot`. It ends where all slots of the loot window are in use. -/
def Loot.fillQuestLoot (loot : Loot) (w : Viewer) : Loot :=
  ((loot.wantedBy (questFilling w) loot.quest_items.length).take
    (MAX_NR_LOOT_ITEMS-loot.items.length)).foldl (Loot.enter (questFilling w) w.player) loot

/-- The filling of `FillFFALoot`. -/
def ffaFilling (w : Viewer) : Filling where
  kind := .ffa
  wanted item := !item.is_looted && item.freeforall && w.allowed item
  counted _ := true
  note item := item

def Loot.fillFFALoot (loot : Loot) (w : Viewer) : Loot :=
  (loot.wantedBy (ffaFilling w) loot.items.length).foldl (Loot.enter (ffaFilling w) w.player) loot

/-- The filling of `FillNonQuestNonFFAConditionalLoot`. -/
def conditionalFilling (w : Viewer) : Filling where
  kind := .conditional
  wanted item :=
    !item.is_looted && !item.freeforall && (w.allowed item || w.rules item) && item.conditional
  counted item := !item.is_counted
  note item := {item with is_counted := true}

/-- `FillNonQuestNonFFAConditionalLoot`. -/
def Loot.fillConditionalLoot (loot : Loot) (w : Viewer) : Loot :=
  (loot.wantedBy (conditionalFilling w) loot.items.length).foldl
    (Loot.enter (conditionalFilling w) w.player) loot

/-! ## Handing out -/

/-- What `LootItemInSlot` finds: an entry and the list that holds the player's own entry. -/
structure Pick where
  /-- Where the entry stands. -/
  place : Place
  index : ℕ
  /-- The list with the player's own entry. -/
  own : Option Kind
  deriving DecidableEq,Repr

/-- An entry of `items` with its flag, or with that of the player's own entry if there is one. -/
def Loot.pickOwn (loot : Loot) (kind : Kind) (item : LootItem) (slot player : ℕ) : Option Pick :=
  match loot.own kind player slot with
  | some q => if q.is_looted=true then none else some ⟨.item slot,slot,some kind⟩
  | none => if item.is_looted=true then none else some ⟨.item slot,slot,none⟩

def Loot.lootItemInSlot (loot : Loot) (slot player : ℕ) : Option Pick :=
  if slot ≥ loot.items.length then
    match (loot.listOf .quest player)[slot-loot.items.length]? with
    | some q => if q.is_looted=true then none else some ⟨.quest q.index,q.index,some .quest⟩
    | none => none
  else
    match loot.items[slot]? with
    | none => none
    | some item =>
      if item.freeforall=true then loot.pickOwn .ffa item slot player
      else if item.conditional=true then loot.pickOwn .conditional item slot player
      else if item.is_looted=true then none
      else some ⟨.item slot,slot,none⟩

/-- The player's own entry is marked. -/
def Loot.markOwn (loot : Loot) (player index : ℕ) : Option Kind → Loot
  | none => loot
  | some kind =>
    {loot with
      lists := Function.update loot.lists kind
        (replace QuestItem.key ⟨player,index,true⟩ (loot.lists kind))}

/-- An entry goes into the inventory of a player. -/
def Loot.give (loot : Loot) (place : Place) (player count : ℕ) : Loot :=
  {loot with given := ⟨place,player,count⟩::loot.given}

/-- `--unlootedCount`. -/
def Loot.countDown (loot : Loot) : Loot := {loot with unlootedCount := loot.unlootedCount-1}

/-- The mark of an entry that one player only may loot. -/
def markShared (item : LootItem) : LootItem :=
  if item.freeforall=true then item else {item with is_looted := true}

/-- What `StoreLootItem` is about to store, when it refuses nothing. -/
def Loot.storable (loot : Loot) (player slot : ℕ) (allowed : LootItem → Bool) (canStore : Bool) :
    Option (Pick×LootItem) :=
  match loot.lootItemInSlot slot player with
  | none => none
  | some pick =>
    match loot.get pick.place with
    | none => none
    | some item =>
      if allowed item=true ∧ (pick.own=some .quest ∨ item.is_blocked=false) ∧ canStore=true then
        some (pick,item)
      else none

def Loot.storeLootItem (loot : Loot) (player slot : ℕ) (allowed : LootItem → Bool)
    (canStore : Bool) : Loot :=
  match loot.storable player slot allowed canStore with
  | none => loot
  | some (pick,item) =>
    (((loot.give pick.place player item.count).markOwn player pick.index pick.own).modify markShared
      pick.place).countDown

/-- The place of a slot of all entries: the quest entries come after the others. -/
def Loot.placeOf (loot : Loot) (slot : ℕ) : Place :=
  if slot ≥ loot.items.length then .quest (slot-loot.items.length) else .item slot

/-- What `HandleLootMasterGiveOpcode` is about to give, when it refuses nothing. -/
def Loot.givable (loot : Loot) (slot : ℕ) (allowed : LootItem → Bool) (canStore : Bool) :
    Option LootItem :=
  match loot.get (loot.placeOf slot) with
  | none => none
  | some item =>
    if canStore=true ∧ (item.follow_loot_rules=true → allowed item=true) then some item else none

/-- `HandleLootMasterGiveOpcode`, past the checks of the looter and of the target. -/
def Loot.masterGive (loot : Loot) (target slot : ℕ) (allowed : LootItem → Bool) (canStore : Bool) :
    Loot :=
  match loot.givable slot allowed canStore with
  | none => loot
  | some item =>
    ((loot.give (loot.placeOf slot) target item.count).modify
      (fun item => {item with count := 0,is_looted := true}) (loot.placeOf slot)).countDown

/-- How a roll ends. -/
inductive Outcome where
  /-- Somebody has won the item and can store it or cannot. -/
  | won (player : ℕ) (canStore : Bool)
  /-- The winner has the item disenchanted. -/
  | disenchanted
  /-- The winner is not found. -/
  | absent
  /-- All have passed. -/
  | passed (isLFRGroup : Bool)
  deriving DecidableEq,Repr

/-- `CountTheRoll` for a slot of the loot. -/
def Loot.award (loot : Loot) (slot : ℕ) (outcome : Outcome) : Loot :=
  match loot.get (loot.placeOf slot) with
  | none => loot
  | some item =>
    let place := loot.placeOf slot
    match outcome with
    | .won player true =>
      ((loot.give place player item.count).modify (fun item => {item with is_looted := true})
        place).countDown
    | .disenchanted => (loot.modify (fun item => {item with is_looted := true}) place).countDown
    | .absent | .passed true => loot
    | .won _ false | .passed false => loot.modify (fun item => {item with is_blocked := false}) place

/-! ## `FillLoot` and runs -/

/-- What the currency loop of `FillNotNormalLootFor` looks at before it stores a slot. Behind
`items` this is the quest entry with the number of the slot, while `StoreLootItem` goes by the
player's own list. -/
def Loot.isCurrency (loot : Loot) (w : Viewer) (slot : ℕ) : Bool :=
  (loot.get (loot.placeOf slot)).any fun item =>
    !item.is_looted && item.freeforall && w.allowed item && w.currency item

/-- A slot of the currency loop. -/
def Loot.autoStore (w : Viewer) (loot : Loot) (slot : ℕ) : Loot :=
  if loot.isCurrency w slot=true then
    loot.storeLootItem w.player slot w.allowed (w.canStore slot)
  else loot

/-- `GetMaxSlotInLootFor`. -/
def Loot.maxSlotFor (loot : Loot) (player : ℕ) : ℕ :=
  loot.items.length+(loot.listOf .quest player).length

/-- The lists of a player that has none. -/
def Loot.fillLists (loot : Loot) (w : Viewer) : Loot :=
  let loot := if (loot.listOf .quest w.player).isEmpty then loot.fillQuestLoot w else loot
  let loot := if (loot.listOf .ffa w.player).isEmpty then loot.fillFFALoot w else loot
  if (loot.listOf .conditional w.player).isEmpty then loot.fillConditionalLoot w else loot

/-- The currency that a present player gets at once. -/
def Loot.autoStoreAll (loot : Loot) (w : Viewer) : Loot :=
  if w.present=true then
    (List.range (loot.maxSlotFor w.player)).foldl (Loot.autoStore w) loot
  else loot

def Loot.fillNotNormalLootFor (loot : Loot) (w : Viewer) : Loot :=
  (loot.fillLists w).autoStoreAll w

/-- The entries of a loot that is filled with what its template rolls. -/
def generate (gold : ℕ) (rolls : List Rolled) : Loot := rolls.foldl Loot.addItem (Loot.empty gold)

/-- `FillLoot` for the owner of the loot or for the members of its group. -/
def fillLoot (gold : ℕ) (rolls : List Rolled) (viewers : List Viewer) : Loot :=
  viewers.foldl Loot.fillNotNormalLootFor (generate gold rolls)

/-- What happens to a loot. -/
inductive Action where
  /-- `FillNotNormalLootFor` a later viewer. -/
  | view (w : Viewer)
  /-- `StoreLootItem` by a player. -/
  | store (player slot : ℕ) (allowed : LootItem → Bool) (canStore : Bool)
  /-- `HandleLootMasterGiveOpcode` for a target. -/
  | give (target slot : ℕ) (allowed : LootItem → Bool) (canStore : Bool)
  /-- `CountTheRoll`. -/
  | award (slot : ℕ) (outcome : Outcome)

/-- One step. -/
def step (loot : Loot) : Action → Loot
  | .view w => loot.fillNotNormalLootFor w
  | .store player slot allowed canStore => loot.storeLootItem player slot allowed canStore
  | .give target slot allowed canStore => loot.masterGive target slot allowed canStore
  | .award slot outcome => loot.award slot outcome

end Projectnelth.LootModel
