import Mathlib

/-!
# Counting and destroying items

The items of a player lie in 74 slots of his own and in the bags of two ranges of them. Asking
whether he has enough, counting and destroying go through the places in an order of their own.
Counts are of 32 bits.
-/

namespace Projectnelth.ItemCountModel

structure Item where
  /-- `GetEntry`. -/
  entry : ℕ
  /-- `GetCount`. -/
  count : ℕ
  /-- `IsInTrade`. -/
  inTrade : Bool
  deriving DecidableEq

/-- The item counts: it is of the entry and not in trade. -/
def counts (itemEntry : ℕ) (item : Item) : Bool := item.entry=itemEntry && !item.inTrade

/-- The slots whose items `GetBagByPos` takes for bags. -/
def isBagSlot (i : ℕ) : Bool := (19 ≤ i && i < 23) || (67 ≤ i && i < 74)

/-- The items of a `Player`. -/
structure Inventory where
  m_items : ℕ → Option Item
  /-- `m_bagslot` of the bag in a slot, as long as `GetBagSize`; empty where there is no bag. -/
  m_bagslot : ℕ → List (Option Item)

/-- A place in the inventory. -/
inductive Pos where
  /-- A slot of the player. -/
  | slot (i : ℕ)
  /-- A slot of a bag. -/
  | inBag (b j : ℕ)
  deriving DecidableEq

namespace Inventory

/-- The bag in a slot: `GetBagByPos`. -/
def bag (inv : Inventory) (b : ℕ) : List (Option Item) :=
  if isBagSlot b && (inv.m_items b).isSome then inv.m_bagslot b else []

def GetItemByPos (inv : Inventory) : Pos → Option Item
  | .slot i => if i < 74 then inv.m_items i else none
  | .inBag b j => (inv.bag b)[j]?.join

/-- `IsNotEmptyBag`, for what is in a slot. -/
def IsNotEmptyBag (inv : Inventory) (i : ℕ) : Bool := (inv.bag i).any Option.isSome

/-- `DestroyItem`. What a bag contains goes with it. -/
def DestroyItem (inv : Inventory) : Pos → Inventory
  | .slot i =>
    { m_items := Function.update inv.m_items i none
      m_bagslot := Function.update inv.m_bagslot i [] }
  | .inBag b j =>
    { inv with m_bagslot := Function.update inv.m_bagslot b ((inv.m_bagslot b).set j none) }

/-- `SetCount`, for the item in a place. -/
def SetCount (inv : Inventory) (value : ℕ) : Pos → Inventory
  | .slot i =>
    { inv with
      m_items := Function.update inv.m_items i
        ((inv.m_items i).map fun item => { item with count := value }) }
  | .inBag b j =>
    { inv with
      m_bagslot := Function.update inv.m_bagslot b
        ((inv.m_bagslot b).modify j (Option.map fun item => { item with count := value })) }

/-- The slots from one to before another. -/
def slots (first last : ℕ) : List Pos := (List.range' first (last-first)).map Pos.slot

/-- The places of the bags in the slots from one to before another. -/
def bags (inv : Inventory) (first last : ℕ) : List Pos :=
  (List.range' first (last-first)).flatMap fun b =>
    (List.range (inv.bag b).length).map (Pos.inBag b)

/-- The places that `HasItemCount` goes through. -/
def hasPlaces (inv : Inventory) (inBankAlso : Bool) : List Pos :=
  slots 0 39++inv.bags 19 23++if inBankAlso then slots 39 67++inv.bags 67 74 else []

/-- The loops of `HasItemCount`. -/
def hasLoop (inv : Inventory) (item count : ℕ) : List Pos → ℕ → Bool
  | [],_ => false
  | p::ps,tempcount =>
    match inv.GetItemByPos p with
    | none => hasLoop inv item count ps tempcount
    | some pItem =>
      if counts item pItem then
        let tempcount := (tempcount+pItem.count)%2^32
        if tempcount ≥ count then true else hasLoop inv item count ps tempcount
      else hasLoop inv item count ps tempcount

def HasItemCount (inv : Inventory) (item count : ℕ) (inBankAlso : Bool) : Bool :=
  inv.hasLoop item count (inv.hasPlaces inBankAlso) 0

/-- The loops of `GetItemCount`, with no item to skip, over some places. -/
def countLoop (inv : Inventory) (keep : Item → Bool) : List Pos → ℕ → ℕ
  | [],count => count
  | p::ps,count =>
    match inv.GetItemByPos p with
    | none => countLoop inv keep ps count
    | some pItem =>
      countLoop inv keep ps (if keep pItem then (count+pItem.count)%2^32 else count)

def GetItemCount (inv : Inventory) (item : ℕ) (inBankAlso : Bool) : ℕ :=
  inv.countLoop (fun pItem => pItem.entry=item)
    (slots 0 39++inv.bags 19 23++if inBankAlso then slots 39 74++inv.bags 67 74 else []) 0

/-- `CanUnequipItem`, for what is in a place. The slots with another reason not to unequip what
they hold are given. -/
def CanUnequipItem (blocked : ℕ → Bool) (inv : Inventory) : Pos → Bool
  | .slot i => !(decide (i < 23) && (blocked i || inv.IsNotEmptyBag i))
  | .inBag _ _ => true

/-- The places that `DestroyItemCount` goes through. The slots below 23 are those where it asks
`CanUnequipItem`. -/
def destroyPlaces (inv : Inventory) : List Pos :=
  slots 23 39++inv.bags 19 23++slots 0 23++slots 39 67++inv.bags 67 74

/-- The loops of `DestroyItemCount`. -/
def destroyLoop (blocked : ℕ → Bool) (itemEntry count : ℕ) (unequip_check : Bool) :
    List Pos → ℕ → Inventory → Inventory
  | [],_,inv => inv
  | p::ps,remcount,inv =>
    match inv.GetItemByPos p with
    | none => destroyLoop blocked itemEntry count unequip_check ps remcount inv
    | some item =>
      if counts itemEntry item then
        if (item.count+remcount)%2^32 ≤ count then
          if !unequip_check || inv.CanUnequipItem blocked p then
            let remcount := (remcount+item.count)%2^32
            let inv := inv.DestroyItem p
            if remcount ≥ count then inv
            else destroyLoop blocked itemEntry count unequip_check ps remcount inv
          else destroyLoop blocked itemEntry count unequip_check ps remcount inv
        else inv.SetCount ((item.count+(2^32-count)+remcount)%2^32) p
      else destroyLoop blocked itemEntry count unequip_check ps remcount inv

/-- `DestroyItemCount`. No bag that it goes through is destroyed before. -/
def DestroyItemCount (blocked : ℕ → Bool) (inv : Inventory) (itemEntry count : ℕ)
    (unequip_check : Bool) : Inventory :=
  destroyLoop blocked itemEntry count unequip_check inv.destroyPlaces 0 inv

end Inventory

end Projectnelth.ItemCountModel
