import Mathlib

/-!
# Groups of loot entries

A group of a loot template yields one of its entries at most. The entries with a chance of their
own are rolled for first, among those that some looter may have, and an entry without one is
picked if none was hit. The roll goes along weights that are kept in the entries.
-/

namespace Projectnelth.LootGroupModel

/-- `LootStoreItem`: an entry of a template. -/
structure LootStoreItem where
  /-- Where the entry was allocated. -/
  address : ℕ
  /-- The item, or nothing that is read for a reference. -/
  itemid : ℕ
  /-- The chance in per cent, without its sign. -/
  chance : ℚ
  /-- The least count, or the referenced template with a minus. -/
  mincountOrRef : ℤ
  /-- The modes the entry is for. -/
  lootmode : ℕ
  /-- The group in the template, or zero. -/
  group : ℕ
  needs_quest : Bool
  /-- The largest count, or how often a reference is followed. -/
  maxcount : ℕ
  conditions : ℕ
  deriving DecidableEq, Repr

/-- The constructor: a quest drop has a negative chance in the table, and a group has seven
bits. -/
def LootStoreItem.create (address itemid : ℕ) (chanceOrQuestChance : ℚ) (lootmode group : ℕ)
    (mincountOrRef : ℤ) (maxcount conditions : ℕ) : LootStoreItem where
  address := address
  itemid := itemid
  chance := |chanceOrQuestChance|
  mincountOrRef := mincountOrRef
  lootmode := lootmode
  group := group%128
  needs_quest := decide (chanceOrQuestChance < 0)
  maxcount := maxcount
  conditions := conditions

/-- `LootGroup`: the entries of a group. -/
structure LootGroup where
  ExplicitlyChanced : List LootStoreItem
  /-- The entries without one. -/
  EqualChanced : List LootStoreItem
  deriving DecidableEq, Repr

/-- A group before anything was added. -/
def LootGroup.empty : LootGroup := ⟨[],[]⟩

def LootGroup.addEntry (group : LootGroup) (item : LootStoreItem) : LootGroup :=
  if item.chance≠0 then {group with ExplicitlyChanced := group.ExplicitlyChanced++[item]}
  else {group with EqualChanced := group.EqualChanced++[item]}

/-- What `Loot` holds that a roll reads. -/
structure Loot where
  items : List ℕ
  /-- How often an item may be in the loot. -/
  maxDuplicates : UInt8
  /-- The looters. Their order is not read. -/
  PlayersLooting : List ℕ

def Loot.addLooter (loot : Loot) (GUID : ℕ) : Loot :=
  if GUID∈loot.PlayersLooting then loot
  else {loot with PlayersLooting := GUID::loot.PlayersLooting}

/-- What a roll reads beside the group. -/
structure Setting where
  loot : Loot
  lootMode : ℕ
  /-- `ObjectAccessor::FindPlayer`. -/
  findPlayer : ℕ → Option ℕ
  /-- `ConditionMgr::IsObjectMeetToConditions` for a player. -/
  isObjectMeetToConditions : ℕ → ℕ → Bool

/-- Whether the count of `LootGroupInvalidSelector` over the items comes to the limit. -/
def reachesLimit (maxDuplicates : UInt8) (itemid : ℕ) : UInt8 → List ℕ → Bool
  | _,[] => false
  | foundDuplicates,id::items =>
    if id=itemid then
      foundDuplicates+1=maxDuplicates || reachesLimit maxDuplicates itemid (foundDuplicates+1) items
    else reachesLimit maxDuplicates itemid foundDuplicates items

def Setting.lootGroupInvalidSelector (s : Setting) (item : LootStoreItem) : Bool :=
  item.lootmode &&& s.lootMode=0 ||
    reachesLimit s.loot.maxDuplicates item.itemid 0 s.loot.items

/-- The entries that `remove_if` leaves. -/
def Setting.possibleLoot (s : Setting) (items : List LootStoreItem) : List LootStoreItem :=
  items.filter fun item => !s.lootGroupInvalidSelector item

/-- Whether a looter is there and meets the conditions of an entry. -/
def Setting.canUse (s : Setting) (item : LootStoreItem) (guid : ℕ) : Bool :=
  guid≠0 &&
    match s.findPlayer guid with
    | some player => s.isObjectMeetToConditions player item.conditions
    | none => false

/-- The turn of the loop over the shuffled entries for one of them. -/
def Setting.insertions (s : Setting) (item : LootStoreItem) : List LootStoreItem :=
  -- nothing sets the flag, so each looter that can use the entry inserts it
  let someone_can_use := false
  s.loot.PlayersLooting.filterMap fun guid =>
    if !someone_can_use && s.canUse item guid then some item else none

/-- The upper end of the weights so far, and the weights in the entries. -/
structure Weights where
  roll_cap : ℚ
  /-- `weighted_calc` of the entries. -/
  weighted_calc : ℕ → ℚ

/-- An entry ends a length after the entries before it. -/
def Weights.push (w : Weights) (item : LootStoreItem) (length : ℚ) : Weights where
  roll_cap := w.roll_cap+length
  weighted_calc := Function.update w.weighted_calc item.address (w.roll_cap+length)

/-- The turn of the loop over the entries with a chance. -/
def Weights.pushChanced (w : Weights) (item : LootStoreItem) : Weights :=
  if item.chance≠0 then w.push item |item.chance| else w

/-- The turn of the loop over the entries without one. -/
def Weights.pushZero (share : ℚ) (w : Weights) (item : LootStoreItem) : Weights :=
  if item.chance=0 then w.push item share else w

/-- The three loops that lay out the weights. -/
def weigh (weighted_calc : ℕ → ℚ) (items : List LootStoreItem) : Weights :=
  let zero_denominator := items.countP fun item => item.chance=0
  let w := items.foldl Weights.pushChanced ⟨0,weighted_calc⟩
  if zero_denominator ≥ 1 ∧ w.roll_cap < 100 then
    items.foldl (Weights.pushZero ((100-w.roll_cap)/zero_denominator)) w
  else w

/-- What is left to chance but the roll itself. -/
structure Dice where
  /-- `std::random_shuffle`. -/
  shuffle : List LootStoreItem → List LootStoreItem
  /-- `urand` from zero. -/
  urand : ℕ → ℕ
  /-- A shuffle keeps the entries. -/
  perm : ∀ items,(shuffle items).Perm items
  /-- The number is not above the bound. -/
  urand_le : ∀ bound,urand bound ≤ bound

def Dice.selectRandomContainerElement (dice : Dice) (items : List LootStoreItem) :
    Option LootStoreItem :=
  items[dice.urand (items.length-1)]?

/-- `possibleLoot_shuffled`. -/
def LootGroup.shuffled (group : LootGroup) (s : Setting) (dice : Dice) : List LootStoreItem :=
  (dice.shuffle (s.possibleLoot group.ExplicitlyChanced)).flatMap s.insertions

/-- The upper end of the range of the roll. -/
def LootGroup.rollMax (group : LootGroup) (s : Setting) (dice : Dice) (weighted_calc : ℕ → ℚ) : ℚ :=
  max (weigh weighted_calc (group.shuffled s dice)).roll_cap 100

/-- `LootGroup::Roll`: the entry, and the weights in the entries afterwards. -/
def LootGroup.roll (group : LootGroup) (s : Setting) (dice : Dice) (weighted_calc : ℕ → ℚ)
    (roll : ℚ) : Option LootStoreItem×(ℕ → ℚ) :=
  let equal :=
    dice.selectRandomContainerElement (s.possibleLoot group.EqualChanced)
  if (s.possibleLoot group.ExplicitlyChanced).isEmpty then (equal,weighted_calc)
  else
    let items := group.shuffled s dice
    let w := weigh weighted_calc items
    match items.find? fun item => roll ≤ w.weighted_calc item.address with
    | some item => (some item,w.weighted_calc)
    | none => (equal,w.weighted_calc)

end Projectnelth.LootGroupModel
