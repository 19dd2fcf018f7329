import Mathlib
import Projectnelth.ArraySizes
import Projectnelth.KeyedList
import Projectnelth.PlayerMoney

/-!
# Trades

Two players offer money, items and a spell to each other, accept, and the trade is
executed when the second one does. What can be stored where, and which spells can be
cast, is given with each operation. The mark of an item in trade and the mark of the
accepting of a trade last for one operation and are read by what is given with it.
-/

namespace Projectnelth.TradeModel

open KeyedList PlayerMoney

abbrev TRADE_SLOT_COUNT : ℕ := 7

def TRADE_SLOT_TRADED_COUNT : ℕ := 6

def TRADE_SLOT_NONTRADED : Fin TRADE_SLOT_COUNT := 6

/-- The two parties of a trade. -/
inductive Party where
  | one
  | two
  deriving DecidableEq

/-- `GetTrader`. -/
def Party.trader : Party → Party
  | .one => .two
  | .two => .one

/-- An item, with what the trade handlers read of it. -/
structure Item where
  /-- `GetGUID`. -/
  guid : ℕ
  /-- `CanBeTraded(false, true)`. -/
  canBeTraded : Bool
  /-- `IsBindedNotWith` the trader. -/
  bindedNotWithTrader : Bool
  deriving DecidableEq

/-- A bag and a slot of it. -/
abbrev Pos := UInt8×UInt8

/-- The items of a player by their places. -/
abbrev Inventory := List (Pos×Item)

structure TradeData where
  /-- `m_accepted`. -/
  accepted : Bool
  /-- `m_money`. -/
  money : UInt64
  /-- `m_spell`. -/
  spell : UInt32
  /-- `m_spellCastItem`. -/
  spellCastItem : ℕ
  /-- `m_items`. -/
  items : Fin TRADE_SLOT_COUNT → ℕ
  deriving DecidableEq

/-- The `m_trade` of both parties. -/
abbrev TradeWindow := Party → TradeData

/-- The two players and the trade between them, if it is open. -/
structure Table where
  /-- `GetMoney()`. -/
  money : Party → UInt64
  /-- The items of the players. -/
  inventory : Party → Inventory
  /-- `m_trade`. -/
  trade : Option TradeWindow

/-- The world around an operation. -/
structure World where
  /-- `GetSpellInfo` finds the spell. -/
  spellInfo : UInt32 → Bool
  checkCast : Party → UInt32 → Bool
  /-- `CanStoreItems`, with the items of the other party. -/
  canStoreItems : Party → List (Option Item) → Bool
  /-- `CanStoreItem`: whether there is room, and the places with those found before. -/
  canStoreItem : Party → Inventory → List Pos → Item → Bool×List Pos
  storeItem : Inventory → List Pos → Item → Inventory

def getItemByPos (inventory : Inventory) (pos : Pos) : Option Item :=
  (lookup Prod.fst pos inventory).map Prod.snd

def getItemByGuid (inventory : Inventory) (guid : ℕ) : Option Item :=
  (lookup (fun held : Pos×Item => held.2.guid) guid inventory).map Prod.snd

def moveItemFromInventory (inventory : Inventory) (item : Item) : Inventory :=
  remove (fun held : Pos×Item => held.2.guid) item.guid inventory

/-- `TradeData::SetAccepted`. -/
def setAccepted (window : TradeWindow) (party : Party) (state : Bool) : TradeWindow :=
  Function.update window party { window party with accepted := state }

/-- `SetAccepted(false)` for both parties. -/
def unaccept (window : TradeWindow) (party : Party) : TradeWindow :=
  setAccepted (setAccepted window party false) party.trader false

/-- `TradeData::SetSpell`. -/
def setSpell (window : TradeWindow) (party : Party) (spell_id : UInt32) (castItem : ℕ) :
    TradeWindow :=
  if (window party).spell=spell_id ∧ (window party).spellCastItem=castItem then window
  else
    unaccept (Function.update window party
      { window party with spell := spell_id, spellCastItem := castItem }) party

/-- `TradeData::SetItem`, with no item as 0. -/
def setItem (window : TradeWindow) (party : Party) (slot : Fin TRADE_SLOT_COUNT) (itemGuid : ℕ) :
    TradeWindow :=
  if (window party).items slot=itemGuid then window
  else
    let changed := unaccept (Function.update window party
      { window party with items := Function.update (window party).items slot itemGuid }) party
    let cleared :=
      if slot=TRADE_SLOT_NONTRADED then setSpell changed party.trader 0 0 else changed
    setSpell cleared party 0 0

/-- `TradeData::SetMoney`, with the money of the player. -/
def setMoney (window : TradeWindow) (party : Party) (balance money : UInt64) : TradeWindow :=
  if (window party).money=money then window
  else if ¬money ≤ balance then window
  else unaccept (Function.update window party { window party with money := money }) party

/-- `TradeData::GetItem`; 0 is no item. -/
def getItem (s : Table) (window : TradeWindow) (party : Party) (slot : Fin TRADE_SLOT_COUNT) :
    Option Item :=
  if (window party).items slot=0 then none
  else getItemByGuid (s.inventory party) ((window party).items slot)

/-- `TradeData::HasItem`. -/
def hasItem (data : TradeData) (itemGuid : ℕ) : Bool := decide (∃ slot,data.items slot=itemGuid)

/-- The slots of the items that are traded. -/
def tradedSlots : List (Fin TRADE_SLOT_COUNT) :=
  (List.finRange TRADE_SLOT_COUNT).filter fun slot => slot.val < TRADE_SLOT_TRADED_COUNT

/-- `myItems` or `hisItems`. -/
def tradedItems (s : Table) (window : TradeWindow) (party : Party) : List (Option Item) :=
  tradedSlots.map (getItem s window party)

/-- The check of `CanStoreItem`; no item can be stored anywhere. -/
def canStore (w : World) (party : Party) (inventory : Inventory) :
    Option Item → List Pos → Bool×List Pos
  | none,dest => (true,dest)
  | some item,dest => w.canStoreItem party inventory dest item

/-- `MoveItemToInventory`. -/
def store (w : World) (inventory : Inventory) (dest : List Pos) : Option Item → Inventory
  | none => inventory
  | some item => w.storeItem inventory dest item

/-- An item goes back, to the places found before and the ones found now. -/
def takeBack (w : World) (party : Party) (inventory : Inventory) (dest : List Pos)
    (item : Option Item) : Inventory :=
  let back := canStore w party inventory item dest
  if back.1 then store w inventory back.2 item else inventory

def moveItems (w : World) (player : Party) :
    (Party → Inventory) → List (Option Item×Option Item) → Party → Inventory
  | inventory,[] => inventory
  | inventory,(myItem,hisItem)::rest =>
    let trader := player.trader
    let traderDst := canStore w trader (inventory trader) myItem []
    let playerDst := canStore w player (inventory player) hisItem []
    let moved :=
      if traderDst.1 && playerDst.1 then
        let given :=
          Function.update inventory trader (store w (inventory trader) traderDst.2 myItem)
        Function.update given player (store w (given player) playerDst.2 hisItem)
      else
        let kept :=
          Function.update inventory player
            (takeBack w player (inventory player) playerDst.2 myItem)
        Function.update kept trader (takeBack w trader (kept trader) traderDst.2 hisItem)
    moveItems w player moved rest

/-- Some item can not be traded now. -/
def untradable (s : Table) (window : TradeWindow) (player : Party) : Bool :=
  tradedSlots.any fun slot =>
    (getItem s window player slot).any (fun item => !item.canBeTraded || item.bindedNotWithTrader)
    || (getItem s window player.trader slot).any fun item => !item.canBeTraded

/-- The spell of a party can not be cast now. -/
def uncastable (w : World) (s : Table) (window : TradeWindow) (party : Party) : Bool :=
  (window party).spell≠0 &&
  (!w.spellInfo (window party).spell ||
    (getItem s window party.trader TRADE_SLOT_NONTRADED).isNone ||
    (decide ((window party).spellCastItem≠0) &&
      (getItemByGuid (s.inventory party) (window party).spellCastItem).isNone) ||
    !w.checkCast party (window party).spell)

/-- The four updates of the money. -/
def exchangeMoney (money : Party → UInt64) (player : Party) (my_money his_money : UInt64) :
    Party → UInt64 :=
  let paid :=
    Function.update money player (ModifyMoney (money player) (-my_money.toInt64)).1
  let earned := Function.update paid player (ModifyMoney (paid player) his_money.toInt64).1
  let trader := player.trader
  let paid' := Function.update earned trader (ModifyMoney (earned trader) (-his_money.toInt64)).1
  Function.update paid' trader (ModifyMoney (paid' trader) my_money.toInt64).1

/-- The items of a trade leave the inventories. -/
def removeItems (inventory : Inventory) (items : List (Option Item)) : Inventory :=
  items.foldl (fun inventory item => item.elim inventory (moveItemFromInventory inventory)) inventory

/-- The execution of a trade. -/
def execute (w : World) (s : Table) (window : TradeWindow) (player : Party) : Table :=
  let myItems := tradedItems s window player
  let hisItems := tradedItems s window player.trader
  let removed := fun party =>
    removeItems (s.inventory party) (if party=player then myItems else hisItems)
  { money := exchangeMoney s.money player (window player).money (window player.trader).money
    inventory := moveItems w player removed (myItems.zip hisItems)
    trade := none }

/-- `HandleAcceptTradeOpcode`. -/
def handleAcceptTrade (w : World) (s : Table) (player : Party) : Table :=
  match s.trade with
  | none => s
  | some window =>
    let trader := player.trader
    let my_trade := setAccepted window player true
    if ¬(my_trade player).money ≤ s.money player then
      { s with trade := some (setAccepted my_trade player false) }
    else if ¬(my_trade trader).money ≤ s.money trader then
      { s with trade := some (setAccepted my_trade trader false) }
    else if untradable s my_trade player then { s with trade := some my_trade }
    else if (my_trade trader).accepted then
      if uncastable w s my_trade player then
        { s with trade := some (setSpell my_trade player 0 0) }
      else if uncastable w s my_trade trader then
        { s with trade := some (setSpell my_trade trader 0 0) }
      else if !w.canStoreItems player (tradedItems s my_trade trader) ||
          !w.canStoreItems trader (tradedItems s my_trade player) then
        { s with trade := some (unaccept my_trade player) }
      else execute w s my_trade player
    else { s with trade := some my_trade }

/-- `HandleUnacceptTradeOpcode`. -/
def handleUnacceptTrade (s : Table) (player : Party) : Table :=
  { s with trade := s.trade.map fun window => setAccepted window player false }

/-- `HandleSetTradeGoldOpcode`. -/
def handleSetTradeGold (s : Table) (player : Party) (gold : UInt64) : Table :=
  { s with trade := s.trade.map fun window => setMoney window player (s.money player) gold }

/-- `HandleSetTradeItemOpcode`. -/
def handleSetTradeItem (s : Table) (player : Party) (tradeSlot : UInt8) (pos : Pos) : Table :=
  match s.trade with
  | none => s
  | some window =>
    if h : tradeSlot.toNat < TRADE_SLOT_COUNT then
      match getItemByPos (s.inventory player) pos with
      | none => s
      | some item =>
        if (⟨tradeSlot.toNat,h⟩ : Fin TRADE_SLOT_COUNT)≠TRADE_SLOT_NONTRADED ∧
            !item.canBeTraded then s
        else if hasItem (window player) item.guid then s
        else { s with trade := some (setItem window player ⟨tradeSlot.toNat,h⟩ item.guid) }
    else s

/-- `HandleClearTradeItemOpcode`. -/
def handleClearTradeItem (s : Table) (player : Party) (tradeSlot : UInt8) : Table :=
  if h : tradeSlot.toNat < TRADE_SLOT_COUNT then
    { s with trade := s.trade.map fun window => setItem window player ⟨tradeSlot.toNat,h⟩ 0 }
  else s

/-- `Spell::cast` on the item that is not traded: the spell waits for the trade. -/
def rememberSpell (s : Table) (player : Party) (spell_id : UInt32) (castItem : ℕ) : Table :=
  { s with trade := s.trade.map fun window => setSpell window player spell_id castItem }

/-- The messages of the parties. -/
inductive TradeOp where
  | setTradeGold (gold : UInt64)
  | setTradeItem (tradeSlot : UInt8) (pos : Pos)
  | clearTradeItem (tradeSlot : UInt8)
  | accept
  | unaccept
  | castSpell (spell_id : UInt32) (castItem : ℕ)

/-- A message of a party, and the world around it. -/
structure Message where
  world : World
  party : Party
  op : TradeOp

/-- One message is handled. -/
def handle (s : Table) (message : Message) : Table :=
  match message.op with
  | .setTradeGold gold => handleSetTradeGold s message.party gold
  | .setTradeItem tradeSlot pos => handleSetTradeItem s message.party tradeSlot pos
  | .clearTradeItem tradeSlot => handleClearTradeItem s message.party tradeSlot
  | .accept => handleAcceptTrade message.world s message.party
  | .unaccept => handleUnacceptTrade s message.party
  | .castSpell spell_id castItem => rememberSpell s message.party spell_id castItem

end Projectnelth.TradeModel
