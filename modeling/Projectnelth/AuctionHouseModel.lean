import Mathlib
import Projectnelth.KeyedList
import Projectnelth.PlayerMoney

/-!
# The auction houses

Selling, bidding, buying out, cancelling and expiring, with the money and the
items that they move. Who is online, which accounts exist, the rates and the
configuration are given with each operation. Packets, logs and times are left
out; a restart keeps what the columns of the database hold.
-/

namespace Projectnelth.AuctionHouseModel

open KeyedList PlayerMoney

def MAX_AUCTION_ITEMS : ℕ := 160

def MIN_AUCTION_TIME : UInt32 := 12*3600

/-- An item, with what a sale reads of it. -/
structure Item where
  /-- `GetGUIDLow`. -/
  guid : ℕ
  /-- `GetEntry`. -/
  entry : UInt32
  /-- `GetCount`. -/
  count : UInt32
  canBeTraded : Bool
  /-- `IsNotEmptyBag`. -/
  notEmptyBag : Bool
  /-- `ITEM_FIELD_DURATION`. -/
  duration : UInt32
  deriving DecidableEq

/-- The three maps of auctions. -/
inductive House where
  | alliance
  | horde
  | neutral
  deriving DecidableEq

/-- `AuctionEntry`, and the map that it is in. -/
structure AuctionEntry where
  house : House
  Id : ℕ
  itemGUIDLow : ℕ
  owner : UInt32
  startbid : UInt64
  bid : UInt64
  buyout : UInt64
  bidder : UInt32
  deposit : UInt32
  deriving DecidableEq

inductive MailAuctionAnswers where
  | outbidded
  | won
  | successful
  | expired
  | cancelledToBidder
  | canceled
  | salePending
  deriving DecidableEq

/-- A mail of an auction house. -/
structure Mail where
  receiver : UInt32
  /-- What the subject says. -/
  answer : MailAuctionAnswers
  money : UInt64
  items : List Item
  deriving DecidableEq

/-- The players with their items, the auctions and the mails sent. -/
structure AuctionHouse where
  /-- `GetMoney()` of the players. -/
  money : UInt32 → UInt64
  inventory : List (UInt32×Item)
  /-- `mAitems`. -/
  aitems : List Item
  /-- `AuctionsMap`. -/
  auctions : List AuctionEntry
  /-- The mails, the last one last. -/
  mails : List Mail
  auctionId : ℕ
  freeItemGuid : List ℕ
  hiItemGuid : ℕ

/-- The world around an operation. -/
structure World where
  /-- `FindPlayer` finds the player. -/
  online : UInt32 → Bool
  /-- `GetPlayerAccountIdByGUID`. -/
  account : UInt32 → UInt32
  /-- `CONFIG_GM_LOG_TRADE`. -/
  logTrade : Bool
  getAuctionCut : AuctionEntry → UInt32
  /-- `GetMaxStackSize` of the item templates. -/
  maxStackSize : UInt32 → UInt32
  /-- `ITEM_PROTO_FLAG_CONJURED` of the item templates. -/
  conjured : UInt32 → Bool

def getAItem (s : AuctionHouse) (guid : ℕ) : Option Item := lookup Item.guid guid s.aitems

def addAItem (s : AuctionHouse) (item : Item) : AuctionHouse :=
  { s with aitems := s.aitems++[item] }

def removeAItem (s : AuctionHouse) (guid : ℕ) : AuctionHouse :=
  { s with aitems := remove Item.guid guid s.aitems }

/-- The place of an auction in the maps. -/
def mapKey (auction : AuctionEntry) : House×ℕ := (auction.house,auction.Id)

def getAuction (s : AuctionHouse) (house : House) (id : ℕ) : Option AuctionEntry :=
  lookup mapKey (house,id) s.auctions

def addAuction (s : AuctionHouse) (auction : AuctionEntry) : AuctionHouse :=
  { s with auctions := remove mapKey (mapKey auction) s.auctions++[auction] }

def removeAuction (s : AuctionHouse) (auction : AuctionEntry) : AuctionHouse :=
  { s with auctions := remove mapKey (mapKey auction) s.auctions }

/-- A write to the fields of an auction. -/
def setAuction (s : AuctionHouse) (auction : AuctionEntry) : AuctionHouse :=
  { s with auctions := replace mapKey auction s.auctions }

/-- `ModifyMoney` with an amount to pay. -/
def pay (s : AuctionHouse) (player : UInt32) (amount : UInt64) : AuctionHouse :=
  { s with money :=
      Function.update s.money player (ModifyMoney (s.money player) (-amount.toInt64)).1 }

def sendMailTo (s : AuctionHouse) (mail : Mail) : AuctionHouse := { s with mails := s.mails++[mail] }

/-- The player is online or has an account. -/
def receiverExists (w : World) (player : UInt32) : Bool := w.online player || w.account player != 0

/-- `SendAuctionWonMail`: the account of the bidder is looked up for the log only. -/
def sendAuctionWonMail (w : World) (s : AuctionHouse) (auction : AuctionEntry) : AuctionHouse :=
  match getAItem s auction.itemGUIDLow with
  | none => s
  | some item =>
    let bidder_accId := if w.logTrade then w.account auction.bidder else 0
    if w.online auction.bidder || bidder_accId != 0 then
      sendMailTo s ⟨auction.bidder,.won,0,[item]⟩
    else s

def sendAuctionSalePendingMail (w : World) (s : AuctionHouse) (auction : AuctionEntry) :
    AuctionHouse :=
  if receiverExists w auction.owner then sendMailTo s ⟨auction.owner,.salePending,0,[]⟩ else s

/-- The `profit` of `SendAuctionSuccessfulMail`. -/
def profit (w : World) (auction : AuctionEntry) : UInt32 :=
  (auction.bid+auction.deposit.toUInt64-(w.getAuctionCut auction).toUInt64).toUInt32

def sendAuctionSuccessfulMail (w : World) (s : AuctionHouse) (auction : AuctionEntry) :
    AuctionHouse :=
  if receiverExists w auction.owner then
    sendMailTo s ⟨auction.owner,.successful,(profit w auction).toUInt64,[]⟩
  else s

def sendAuctionExpiredMail (w : World) (s : AuctionHouse) (auction : AuctionEntry) : AuctionHouse :=
  match getAItem s auction.itemGUIDLow with
  | none => s
  | some item =>
    if receiverExists w auction.owner then sendMailTo s ⟨auction.owner,.expired,0,[item]⟩ else s

def sendAuctionOutbiddedMail (w : World) (s : AuctionHouse) (auction : AuctionEntry) :
    AuctionHouse :=
  if receiverExists w auction.bidder then
    sendMailTo s ⟨auction.bidder,.outbidded,auction.bid,[]⟩
  else s

def sendAuctionCancelledToBidderMail (w : World) (s : AuctionHouse) (auction : AuctionEntry) :
    AuctionHouse :=
  if receiverExists w auction.bidder then
    sendMailTo s ⟨auction.bidder,.cancelledToBidder,auction.bid,[]⟩
  else s

/-- `CalculatePct`, taken as exact. -/
def calculatePct (base : UInt64) (pct : ℕ) : UInt64 := UInt64.ofNat (base.toNat*pct/100)

def getAuctionOutBid (auction : AuctionEntry) : UInt32 :=
  let outbid := (calculatePct auction.bid 5).toUInt32
  if outbid≠0 then outbid else 1

/-- The end of an auction: neither its item nor itself is held any more. -/
def closeAuction (s : AuctionHouse) (auction : AuctionEntry) : AuctionHouse :=
  removeAuction (removeAItem s auction.itemGUIDLow) auction

/-- The part of `HandleAuctionPlaceBid` for a bid below the buyout. -/
def placeBid (w : World) (s : AuctionHouse) (player : UInt32) (auction : AuctionEntry)
    (price : UInt64) : AuctionHouse :=
  let paid :=
    if 0 < auction.bidder then
      if auction.bidder=player then pay s player (price-auction.bid)
      else pay (sendAuctionOutbiddedMail w s auction) player price
    else pay s player price
  setAuction paid { auction with bidder := player, bid := price }

/-- The part of `HandleAuctionPlaceBid` for a buyout. -/
def buyOut (w : World) (s : AuctionHouse) (player : UInt32) (auction : AuctionEntry) :
    AuctionHouse :=
  let paid :=
    if player=auction.bidder then pay s player (auction.buyout-auction.bid)
    else if auction.bidder≠0 then
      sendAuctionOutbiddedMail w (pay s player auction.buyout) auction
    else pay s player auction.buyout
  let sold := { auction with bidder := player, bid := auction.buyout }
  let mailed := sendAuctionWonMail w
    (sendAuctionSuccessfulMail w (sendAuctionSalePendingMail w paid sold) sold) sold
  closeAuction mailed sold

/-- The price is below the buyout, or there is no buyout. -/
def BelowBuyout (auction : AuctionEntry) (price : UInt64) : Prop :=
  price < auction.buyout ∨ auction.buyout=0

instance (auction : AuctionEntry) (price : UInt64) : Decidable (BelowBuyout auction price) :=
  inferInstanceAs (Decidable (_ ∨ _))

/-- The checks of `HandleAuctionPlaceBid` on an auction. -/
def bidAccepted (s : AuctionHouse) (player : UInt32) (auction : AuctionEntry) (price : UInt64) :
    Bool :=
  if auction.owner=player then false
  else if price ≤ auction.bid ∨ price < auction.startbid then false
  else if BelowBuyout auction price ∧
      price < auction.bid+(getAuctionOutBid auction).toUInt64 then false
  else decide (price ≤ s.money player)

/-- `HandleAuctionPlaceBid`; the map is the one of the auctioneer, if there is one. -/
def handleAuctionPlaceBid (w : World) (s : AuctionHouse) (player : UInt32) (house : Option House)
    (auctionId : ℕ) (price : UInt64) : AuctionHouse :=
  if auctionId=0 ∨ price=0 then s
  else match house.bind fun house => getAuction s house auctionId with
    | none => s
    | some auction =>
      if !bidAccepted s player auction price then s
      else if BelowBuyout auction price then placeBid w s player auction price
      else buyOut w s player auction

def handleAuctionRemoveItem (w : World) (s : AuctionHouse) (player : UInt32) (house : Option House)
    (auctionId : ℕ) : AuctionHouse :=
  match house.bind fun house => getAuction s house auctionId with
  | none => s
  | some auction =>
    if auction.owner=player then
      match getAItem s auction.itemGUIDLow with
      | none => s
      | some item =>
        let auctionCut := (w.getAuctionCut auction).toUInt64
        if 0 < auction.bidder ∧ ¬auctionCut ≤ s.money player then s
        else
          let refunded :=
            if 0 < auction.bidder then
              pay (sendAuctionCancelledToBidderMail w s auction) player auctionCut
            else s
          closeAuction (sendMailTo refunded ⟨player,.canceled,0,[item]⟩) auction
    else s

/-- One round of `AuctionHouseObject::Update`. -/
def updateAuction (w : World) (house : House) (s : AuctionHouse) (auctionId : ℕ) : AuctionHouse :=
  match getAuction s house auctionId with
  | none => s
  | some auction =>
    let mailed :=
      if auction.bidder=0 then sendAuctionExpiredMail w s auction
      else sendAuctionWonMail w (sendAuctionSuccessfulMail w s auction) auction
    closeAuction mailed auction

/-- `AuctionHouseObject::Update`, for the rows that the query finds. -/
def update (w : World) (s : AuctionHouse) (house : House) (expired : List ℕ) : AuctionHouse :=
  expired.foldl (updateAuction w house) s

/-- The place of an item among those of the players. -/
def itemKey (held : UInt32×Item) : UInt32×ℕ := (held.1,held.2.guid)

def getItemByGuid (s : AuctionHouse) (player : UInt32) (guid : ℕ) : Option Item :=
  (lookup itemKey (player,guid) s.inventory).map Prod.snd

/-- `GenerateLowGuid` for items. -/
def generateLowGuid (s : AuctionHouse) : AuctionHouse×ℕ :=
  match s.freeItemGuid with
  | guid::rest => ({ s with freeItemGuid := rest },guid)
  | [] => ({ s with hiItemGuid := s.hiItemGuid+1 },s.hiItemGuid)

def cloneItem (w : World) (s : AuctionHouse) (item : Item) (count : UInt32) :
    Option (AuctionHouse×Item) :=
  if count < 1 then none
  else
    let max := w.maxStackSize item.entry
    let generated := generateLowGuid s
    some (generated.1,
      { item with guid := generated.2, count := if max < count then max else count })

/-- The items of a sale with their counts, by the guids of the packet. -/
def collectItems (w : World) (s : AuctionHouse) (player : UInt32) :
    UInt32 → List (ℕ×UInt32) → Option (List (Item×UInt32))
  | _,[] => some []
  | itemEntry,(guid,count)::rest =>
    match getItemByGuid s player guid with
    | none => none
    | some item =>
      let itemEntry := if itemEntry=0 then item.entry else itemEntry
      if (getAItem s item.guid).isSome ∨ !item.canBeTraded ∨ item.notEmptyBag ∨
          w.conjured item.entry ∨ item.duration≠0 ∨ item.count < count ∨ itemEntry≠item.entry then
        none
      else (collectItems w s player itemEntry rest).map ((item,count)::·)

/-- The stacks of a sale are taken from or deleted. -/
def takeCounts (player : UInt32) : AuctionHouse → List (Item×UInt32) → AuctionHouse
  | s,[] => s
  | s,(item,count)::rest =>
    if item.count=count then
      takeCounts player
        { s with
          inventory := remove itemKey (player,item.guid) s.inventory
          freeItemGuid := s.freeItemGuid++[item.guid] } rest
    else
      takeCounts player
        { s with inventory :=
            replace itemKey (player,{ item with count := item.count-count }) s.inventory } rest

/-- The duration in seconds is one of the three that there are. -/
def auctionTime (etime : UInt32) : Bool :=
  let seconds := etime*60
  seconds=MIN_AUCTION_TIME || seconds=2*MIN_AUCTION_TIME || seconds=4*MIN_AUCTION_TIME

/-- The packet of a sale is well formed. -/
def sellPacket (itemGUIDs : List (ℕ×UInt32)) (bid buyout : UInt64) (etime : UInt32) : Bool :=
  itemGUIDs.length ≤ MAX_AUCTION_ITEMS &&
  itemGUIDs.all (fun listed => listed.1≠0 && listed.2≠0 && listed.2 ≤ 1000) &&
  bid≠0 && etime≠0 && bid ≤ MAX_MONEY_AMOUNT && buyout ≤ MAX_MONEY_AMOUNT && auctionTime etime

def finalCount (itemGUIDs : List (ℕ×UInt32)) : UInt32 := (itemGUIDs.map Prod.snd).sum

/-- The items that `HandleAuctionSellItem` has checked, the last checks included. -/
def sellItems (w : World) (s : AuctionHouse) (player : UInt32) (itemGUIDs : List (ℕ×UInt32)) :
    Option (List (Item×UInt32)) :=
  match collectItems w s player 0 itemGUIDs with
  | none => none
  | some items =>
    if finalCount itemGUIDs=0 then none
    else if ¬(itemGUIDs.map Prod.fst).Nodup then none
    else if items.any fun listed => w.maxStackSize listed.1.entry < finalCount itemGUIDs then none
    else some items

/-- `HandleAuctionSellItem`; the flag says that the auction has been made. -/
def handleAuctionSellItem (w : World) (s : AuctionHouse) (player : UInt32) (house : Option House)
    (itemGUIDs : List (ℕ×UInt32)) (bid buyout : UInt64) (etime deposit : UInt32) :
    AuctionHouse×Bool :=
  if !sellPacket itemGUIDs bid buyout etime then (s,false)
  else match house,sellItems w s player itemGUIDs with
    | some house,some ((item,count)::rest) =>
      if ¬deposit.toUInt64 ≤ s.money player then (s,false)
      else
        let paid := { s with
          money :=
            Function.update s.money player
              (ModifyMoney (s.money player) (-deposit.toInt32).toInt64).1
          auctionId := s.auctionId+1 }
        let AH : AuctionEntry := ⟨house,s.auctionId,item.guid,player,bid,0,buyout,0,deposit⟩
        if rest=[] ∧ item.count=count then
          let added := addAuction (addAItem paid item) AH
          ({ added with inventory := remove itemKey (player,item.guid) added.inventory },true)
        else
          match cloneItem w paid item (finalCount itemGUIDs) with
          | none => (paid,false)
          | some (cloned,newItem) =>
            (takeCounts player
              (addAuction (addAItem cloned newItem) { AH with itemGUIDLow := newItem.guid })
              ((item,count)::rest),true)
    | _,_ => (s,false)

/-- The row of an auction in the database, with the widths of its columns. -/
structure AuctionRow where
  id : ℕ
  /-- `auctioneerguid`, which the map follows from. -/
  house : House
  itemguid : ℕ
  itemowner : UInt32
  buyoutprice : UInt32
  buyguid : UInt32
  lastbid : UInt32
  startbid : UInt32
  deposit : UInt32

def saveToDB (auction : AuctionEntry) : AuctionRow :=
  ⟨auction.Id,auction.house,auction.itemGUIDLow,auction.owner,auction.buyout.toUInt32,
    auction.bidder,auction.bid.toUInt32,auction.startbid.toUInt32,auction.deposit⟩

def loadFromDB (row : AuctionRow) : AuctionEntry :=
  ⟨row.house,row.id,row.itemguid,row.itemowner,row.startbid.toUInt64,row.lastbid.toUInt64,
    row.buyoutprice.toUInt64,row.buyguid,row.deposit⟩

/-- The auctions are saved and loaded. -/
def restart (s : AuctionHouse) : AuctionHouse :=
  { s with auctions := s.auctions.map fun auction => loadFromDB (saveToDB auction) }

/-- The operations. -/
inductive AuctionOp where
  | sellItem (player : UInt32) (house : Option House) (itemGUIDs : List (ℕ×UInt32))
    (bid buyout : UInt64) (etime deposit : UInt32)
  | placeBid (player : UInt32) (house : Option House) (auctionId : ℕ) (price : UInt64)
  | removeItem (player : UInt32) (house : Option House) (auctionId : ℕ)
  | update (house : House) (expired : List ℕ)
  | restart

/-- One operation. -/
def apply (w : World) (s : AuctionHouse) : AuctionOp → AuctionHouse
  | .sellItem player house itemGUIDs bid buyout etime deposit =>
    (handleAuctionSellItem w s player house itemGUIDs bid buyout etime deposit).1
  | .placeBid player house auctionId price => handleAuctionPlaceBid w s player house auctionId price
  | .removeItem player house auctionId => handleAuctionRemoveItem w s player house auctionId
  | .update house expired => update w s house expired
  | .restart => restart s

/-- At most mails have been sent. -/
structure Posts (s s' : AuctionHouse) : Prop where
  money : s'.money=s.money
  /-- The items of the players. -/
  inventory : s'.inventory=s.inventory
  /-- The items in auctions. -/
  aitems : s'.aitems=s.aitems
  auctions : s'.auctions=s.auctions
  auctionId : s'.auctionId=s.auctionId
  freeItemGuid : s'.freeItemGuid=s.freeItemGuid
  hiItemGuid : s'.hiItemGuid=s.hiItemGuid
  mails : s.mails <+: s'.mails

section Posts
variable {w : World} {s s' s'' : AuctionHouse}

theorem Posts.refl (s : AuctionHouse) : Posts s s := ⟨rfl,rfl,rfl,rfl,rfl,rfl,rfl,List.prefix_rfl⟩

theorem Posts.trans (h : Posts s s') (h' : Posts s' s'') : Posts s s'' :=
  ⟨h'.money.trans h.money,h'.inventory.trans h.inventory,h'.aitems.trans h.aitems,
    h'.auctions.trans h.auctions,h'.auctionId.trans h.auctionId,
    h'.freeItemGuid.trans h.freeItemGuid,h'.hiItemGuid.trans h.hiItemGuid,h.mails.trans h'.mails⟩

theorem posts_sendMailTo (s : AuctionHouse) (mail : Mail) : Posts s (sendMailTo s mail) :=
  ⟨rfl,rfl,rfl,rfl,rfl,rfl,rfl,List.prefix_append _ _⟩

theorem posts_if {sent : Bool} {mail : Mail} :
    Posts s (if sent then sendMailTo s mail else s) := by
  cases sent with
  | true => exact posts_sendMailTo s mail
  | false => exact .refl s

theorem posts_wonMail (w : World) (s : AuctionHouse) (auction : AuctionEntry) :
    Posts s (sendAuctionWonMail w s auction) := by
  unfold sendAuctionWonMail
  split
  · exact .refl s
  · exact posts_if

theorem posts_expiredMail (w : World) (s : AuctionHouse) (auction : AuctionEntry) :
    Posts s (sendAuctionExpiredMail w s auction) := by
  unfold sendAuctionExpiredMail
  split
  · exact .refl s
  · exact posts_if

end Posts

end Projectnelth.AuctionHouseModel
