import Mathlib
import Projectnelth.AuctionHouseModel
import Projectnelth.RunInvariant

/-!
# The money of the auction houses

The money of the players, the bids that open auctions hold and the money inside
the mails are one sum. A bid and a cancellation keep it, up to the cut of the
owner; a buyout pays the deposit out and keeps the cut back. The owner's profit
and the columns of the database have 32 bits, so a sale and a restart are exact
below that.
-/

namespace Projectnelth.AuctionHouseMoney

open KeyedList PlayerMoney AuctionHouseModel RunInvariant

/-- The bid that an auction holds. -/
def held (auction : AuctionEntry) : ℕ := if auction.bidder=0 then 0 else auction.bid.toNat

/-- The money of the players. -/
def purses (characters : Finset UInt32) (s : AuctionHouse) : ℕ :=
  ∑ player∈characters,(s.money player).toNat

/-- The bids of the open auctions. -/
def bids (s : AuctionHouse) : ℕ := (s.auctions.map held).sum

/-- The money inside the mails. -/
def letters (s : AuctionHouse) : ℕ := (s.mails.map fun mail => mail.money.toNat).sum

/-- All the money. -/
def total (characters : Finset UInt32) (s : AuctionHouse) : ℕ :=
  purses characters s+bids s+letters s

/-- Auctions of existing characters, each at its place, with bids below the buyout. -/
structure Proper (characters : Finset UInt32) (s : AuctionHouse) : Prop where
  /-- No place is taken twice. -/
  keys : (s.auctions.map mapKey).Nodup
  /-- The ids are used up. -/
  fresh : ∀ auction∈s.auctions,auction.Id < s.auctionId
  owner : ∀ auction∈s.auctions,auction.owner∈characters
  bidder : ∀ auction∈s.auctions,auction.bidder≠0 → auction.bidder∈characters
  below : ∀ auction∈s.auctions,auction.bidder≠0 → auction.buyout≠0 → auction.bid < auction.buyout

/-- What the operations of a run are given: characters that exist, and prices within
the largest amount of money; for a restart, prices that fit their columns. -/
def Regular (characters : Finset UInt32) (s : AuctionHouse) (step : World×AuctionOp) : Prop :=
  (∀ player∈characters,receiverExists step.1 player=true) ∧
  match step.2 with
  | .sellItem player _ _ _ _ _ _ => player∈characters
  | .placeBid player _ _ price => player∈characters ∧ player≠0 ∧ price ≤ MAX_MONEY_AMOUNT
  | .removeItem player _ _ => player∈characters
  | .update _ _ => True
  | .restart => ∀ auction∈s.auctions,
      auction.bid.toNat < 2^32 ∧ auction.buyout.toNat < 2^32 ∧ auction.startbid.toNat < 2^32

/-- The profit of the owner fits in its word. -/
def Exact (w : World) (auction : AuctionEntry) : Prop :=
  (w.getAuctionCut auction).toNat ≤ auction.bid.toNat+auction.deposit.toNat ∧
  auction.bid.toNat+auction.deposit.toNat < 2^32+(w.getAuctionCut auction).toNat

/-- The owner has got the mail with the bid and the deposit, less the cut. -/
def OwnerPaid (w : World) (auction : AuctionEntry) (s : AuctionHouse) : Prop :=
  ∃ mail∈s.mails,mail.receiver=auction.owner ∧ mail.answer=.successful ∧
    mail.money.toNat+(w.getAuctionCut auction).toNat=auction.bid.toNat+auction.deposit.toNat

/-- The bidder before has got back what the auction held. -/
def Refunded (answer : MailAuctionAnswers) (auction : AuctionEntry) (s s' : AuctionHouse) : Prop :=
  ∃ mails,s'.mails=s.mails++⟨auction.bidder,answer,auction.bid,[]⟩::mails

/-- What an operation does to money. -/
def Lawful (characters : Finset UInt32) (s : AuctionHouse) (step : World×AuctionOp)
    (s' : AuctionHouse) : Prop :=
  match step.2 with
  | .sellItem _ _ _ _ _ _ _ => True
  | .placeBid player house auctionId price =>
    match house.bind fun house => getAuction s house auctionId with
    | none => s'=s
    | some auction =>
      if auctionId=0 ∨ price=0 ∨ bidAccepted s player auction price=false then s'=s
      else
        (auction.bidder≠0 → auction.bidder≠player → Refunded .outbidded auction s s') ∧
        if BelowBuyout auction price then total characters s'=total characters s
        else
          let sold := { auction with bidder := player, bid := auction.buyout }
          Exact step.1 sold → OwnerPaid step.1 sold s' ∧
            total characters s'+(step.1.getAuctionCut sold).toNat=
              total characters s+sold.deposit.toNat
  | .removeItem player house auctionId =>
    s'=s ∨ ∃ auction,(house.bind fun house => getAuction s house auctionId)=some auction ∧
      auction.owner=player ∧
      (auction.bidder≠0 → Refunded .cancelledToBidder auction s s') ∧
      total characters s'+(if auction.bidder=0 then 0 else (step.1.getAuctionCut auction).toNat)=
        total characters s
  | .update _ _ => ∀ auction∈s.auctions,auction∉s'.auctions → auction.bidder≠0 →
      Exact step.1 auction → OwnerPaid step.1 auction s'
  | .restart => s'=s

section Parts
variable {characters : Finset UInt32} {w : World} {s : AuctionHouse} {player : UInt32}
  {auction : AuctionEntry} {amount : UInt64}

theorem purses_pay (hplayer : player∈characters) (hamount : amount ≤ s.money player)
    (hsmall : amount.toNat ≤ 2^63) :
    purses characters (pay s player amount)+amount.toNat=purses characters s :=
  sum_debit hplayer hamount hsmall

theorem letters_sendMailTo (s : AuctionHouse) (mail : Mail) :
    letters (sendMailTo s mail)=letters s+mail.money.toNat := by
  unfold letters sendMailTo
  rw [List.map_append,List.sum_append]
  rfl

theorem bids_eq (hkeys : (s.auctions.map mapKey).Nodup)
    (hget : lookup mapKey (mapKey auction) s.auctions=some auction) :
    bids s=held auction+((remove mapKey (mapKey auction) s.auctions).map held).sum := by
  unfold bids
  rw [((perm_cons_remove hkeys hget).map held).sum_eq]
  rfl

theorem bids_closeAuction (hkeys : (s.auctions.map mapKey).Nodup)
    (hget : lookup mapKey (mapKey auction) s.auctions=some auction) :
    bids (closeAuction s auction)+held auction=bids s := by
  rw [bids_eq hkeys hget,add_comm]
  rfl

theorem bids_setAuction (changed : AuctionEntry) (hkeys : (s.auctions.map mapKey).Nodup)
    (hget : lookup mapKey (mapKey auction) s.auctions=some auction)
    (hkey : mapKey changed=mapKey auction) :
    bids (setAuction s changed)+held auction=bids s+held changed := by
  have hperm := (replace_perm (b := changed) hkeys (hkey ▸ hget)).map held
  have hafter : bids (setAuction s changed)=
      held changed+((remove mapKey (mapKey auction) s.auctions).map held).sum := by
    rw [← hkey]
    exact hperm.sum_eq
  rw [bids_eq hkeys hget,hafter]
  omega

/-- The profit, if it fits. -/
theorem toNat_profit (hexact : Exact w auction) :
    (profit w auction).toNat+(w.getAuctionCut auction).toNat=
      auction.bid.toNat+auction.deposit.toNat := by
  obtain ⟨hle,hlt⟩ := hexact
  have hcut := UInt32.toNat_lt (w.getAuctionCut auction)
  have hsum : (auction.bid+auction.deposit.toUInt64).toNat=
      auction.bid.toNat+auction.deposit.toNat := by
    rw [toNat_add_of_lt] <;> rw [UInt32.toNat_toUInt64]
    omega
  have hcut' : (w.getAuctionCut auction).toUInt64.toNat=(w.getAuctionCut auction).toNat :=
    UInt32.toNat_toUInt64 _
  have hsub := UInt64.toNat_sub_of_le (auction.bid+auction.deposit.toUInt64)
    (w.getAuctionCut auction).toUInt64 (UInt64.le_iff_toNat_le.mpr (by omega))
  rw [profit,UInt64.toNat_toUInt32,hsub,hsum,hcut',Nat.mod_eq_of_lt (by omega)]
  omega

/-- The mail of a sold item has no money. -/
theorem letters_wonMail (w : World) (s : AuctionHouse) (auction : AuctionEntry) :
    letters (sendAuctionWonMail w s auction)=letters s := by
  unfold sendAuctionWonMail
  split
  · rfl
  dsimp only
  generalize (w.online auction.bidder ||
    (if w.logTrade then w.account auction.bidder else 0) != 0)=sent
  cases sent with
  | true => exact letters_sendMailTo _ _
  | false => rfl

end Parts

section Steps
variable {characters : Finset UInt32} {w : World} {s : AuctionHouse} {player : UInt32}
  {auction : AuctionEntry} {price : UInt64}

/-- What the checks of a bid leave. -/
theorem bidAccepted_spec (h : bidAccepted s player auction price=true) :
    auction.owner≠player ∧ auction.bid.toNat < price.toNat ∧ price ≤ s.money player := by
  unfold bidAccepted at h
  split at h
  · cases h
  rename_i howner
  split at h
  · cases h
  rename_i hprice
  split at h
  · cases h
  · exact ⟨howner,UInt64.lt_iff_toNat_lt.mp (UInt64.not_le.mp (not_or.mp hprice).1),
      of_decide_eq_true h⟩

theorem pos_iff_ne_zero {player : UInt32} : 0 < player ↔ player≠0 := by
  rw [UInt32.lt_iff_toNat_lt,ne_eq,← UInt32.toNat_inj]
  exact Nat.pos_iff_ne_zero

/-- A bid is held in the place of the bid before, which goes back. -/
theorem placeBid_lawful (hkeys : (s.auctions.map mapKey).Nodup)
    (hget : lookup mapKey (mapKey auction) s.auctions=some auction)
    (hplayer : player∈characters) (hzero : player≠0) (hmax : price ≤ MAX_MONEY_AMOUNT)
    (hexists : auction.bidder≠0 → receiverExists w auction.bidder=true)
    (haccepted : bidAccepted s player auction price=true) :
    (auction.bidder≠0 → auction.bidder≠player →
      Refunded .outbidded auction s (placeBid w s player auction price)) ∧
    total characters (placeBid w s player auction price)=total characters s := by
  obtain ⟨-,hbid,hmoney⟩ := bidAccepted_spec haccepted
  have hmax' := UInt64.le_iff_toNat_le.mp hmax
  rw [MAX_MONEY_AMOUNT_toNat] at hmax'
  have hheld : held { auction with bidder := player, bid := price }=price.toNat := if_neg hzero
  unfold placeBid
  by_cases hnone : auction.bidder=0
  · have hpaid := purses_pay hplayer hmoney (by omega)
    have hbids := bids_setAuction (s := pay s player price)
      { auction with bidder := player, bid := price } hkeys hget rfl
    rw [hheld,held,if_pos hnone] at hbids
    rw [if_neg (mt pos_iff_ne_zero.mp (not_not.mpr hnone))]
    refine ⟨fun h => absurd hnone h,?_⟩
    change purses characters (pay s player price)+bids (setAuction _ _)+letters s=
      purses characters s+bids s+letters s
    rw [show bids (pay s player price)=bids s from rfl] at hbids
    omega
  · rw [if_pos (pos_iff_ne_zero.mpr hnone)]
    by_cases hown : auction.bidder=player
    · have hle := UInt64.toNat_sub_of_le price auction.bid (UInt64.le_iff_toNat_le.mpr hbid.le)
      have hless : price-auction.bid ≤ s.money player := by
        rw [UInt64.le_iff_toNat_le] at hmoney ⊢
        omega
      have hpaid := purses_pay hplayer hless (by omega)
      have hbids := bids_setAuction (s := pay s player (price-auction.bid))
        { auction with bidder := player, bid := price } hkeys hget rfl
      rw [hheld,held,if_neg hnone] at hbids
      rw [if_pos hown]
      refine ⟨fun _ h => absurd hown h,?_⟩
      change purses characters (pay s player (price-auction.bid))+bids (setAuction _ _)+letters s=
        purses characters s+bids s+letters s
      rw [show bids (pay s player (price-auction.bid))=bids s from rfl] at hbids
      omega
    · have hsent : sendAuctionOutbiddedMail w s auction=
          sendMailTo s ⟨auction.bidder,.outbidded,auction.bid,[]⟩ := if_pos (hexists hnone)
      rw [if_neg hown,hsent]
      have hpaid := purses_pay (s := sendMailTo s ⟨auction.bidder,.outbidded,auction.bid,[]⟩)
        hplayer hmoney (by omega)
      have hbids := bids_setAuction
        (s := pay (sendMailTo s ⟨auction.bidder,.outbidded,auction.bid,[]⟩) player price)
        { auction with bidder := player, bid := price } hkeys hget rfl
      have hletters := letters_sendMailTo s ⟨auction.bidder,.outbidded,auction.bid,[]⟩
      rw [hheld,held,if_neg hnone] at hbids
      refine ⟨fun _ _ => ⟨[],rfl⟩,?_⟩
      change purses characters (pay _ player price)+bids (setAuction _ _)+letters (sendMailTo _ _)=
        purses characters s+bids s+letters s
      rw [show purses characters (sendMailTo s _)=purses characters s from rfl] at hpaid
      rw [show bids (pay (sendMailTo s _) player price)=bids s from rfl] at hbids
      dsimp only at hletters
      omega

/-- What a buyer has paid, with the bid before on its way back. -/
def buyerPaid (w : World) (s : AuctionHouse) (player : UInt32) (auction : AuctionEntry) :
    AuctionHouse :=
  if player=auction.bidder then pay s player (auction.buyout-auction.bid)
  else if auction.bidder≠0 then
    sendAuctionOutbiddedMail w (pay s player auction.buyout) auction
  else pay s player auction.buyout

theorem buyerPaid_spec (hplayer : player∈characters) (hzero : player≠0)
    (hmoney : auction.buyout ≤ s.money player) (hmax : auction.buyout ≤ MAX_MONEY_AMOUNT)
    (hexists : auction.bidder≠0 → receiverExists w auction.bidder=true)
    (hbelow : auction.bidder≠0 → auction.bid < auction.buyout) :
    (buyerPaid w s player auction).auctions=s.auctions ∧
    (auction.bidder≠0 → auction.bidder≠player →
      Refunded .outbidded auction s (buyerPaid w s player auction)) ∧
    total characters (buyerPaid w s player auction)+auction.buyout.toNat=
      total characters s+held auction := by
  have hmax' := UInt64.le_iff_toNat_le.mp hmax
  rw [MAX_MONEY_AMOUNT_toNat] at hmax'
  have hmoney' := UInt64.le_iff_toNat_le.mp hmoney
  unfold buyerPaid
  by_cases hown : player=auction.bidder
  · have hnone : auction.bidder≠0 := hown ▸ hzero
    have hbid := UInt64.lt_iff_toNat_lt.mp (hbelow hnone)
    have hle := UInt64.toNat_sub_of_le auction.buyout auction.bid
      (UInt64.le_iff_toNat_le.mpr hbid.le)
    have hless : auction.buyout-auction.bid ≤ s.money player := by
      rw [UInt64.le_iff_toNat_le]
      omega
    have hpaid := purses_pay hplayer hless (by omega)
    rw [if_pos hown,held,if_neg hnone]
    refine ⟨rfl,fun _ h => absurd hown.symm h,?_⟩
    change purses characters (pay s player (auction.buyout-auction.bid))+bids s+letters s+_=
      purses characters s+bids s+letters s+_
    omega
  · have hpaid := purses_pay hplayer hmoney (by omega)
    rw [if_neg hown]
    by_cases hnone : auction.bidder=0
    · rw [if_neg (not_not.mpr hnone),held,if_pos hnone]
      refine ⟨rfl,fun h => absurd hnone h,?_⟩
      change purses characters (pay s player auction.buyout)+bids s+letters s+_=
        purses characters s+bids s+letters s+_
      omega
    · have hsent : sendAuctionOutbiddedMail w (pay s player auction.buyout) auction=
          sendMailTo (pay s player auction.buyout) ⟨auction.bidder,.outbidded,auction.bid,[]⟩ :=
        if_pos (hexists hnone)
      rw [if_pos hnone,hsent,held,if_neg hnone]
      refine ⟨rfl,fun _ _ => ⟨[],rfl⟩,?_⟩
      have hletters := letters_sendMailTo (pay s player auction.buyout)
        ⟨auction.bidder,.outbidded,auction.bid,[]⟩
      change purses characters (pay s player auction.buyout)+bids s+letters (sendMailTo _ _)+_=
        purses characters s+bids s+letters s+_
      rw [show letters (pay s player auction.buyout)=letters s from rfl] at hletters
      dsimp only at hletters
      omega

theorem sale_spec (characters : Finset UInt32) (s : AuctionHouse) {sold : AuctionEntry}
    (howner : receiverExists w sold.owner=true) :
    let s' := sendAuctionWonMail w (sendAuctionSuccessfulMail w s sold) sold
    total characters s'=total characters s+(profit w sold).toNat ∧ Posts s s' ∧
    (Exact w sold → OwnerPaid w sold s') := by
  have hsent : sendAuctionSuccessfulMail w s sold=
      sendMailTo s ⟨sold.owner,.successful,(profit w sold).toUInt64,[]⟩ := if_pos howner
  have hletters := letters_sendMailTo s ⟨sold.owner,.successful,(profit w sold).toUInt64,[]⟩
  rw [hsent]
  have hwon := letters_wonMail w
    (sendMailTo s ⟨sold.owner,.successful,(profit w sold).toUInt64,[]⟩) sold
  have hposts := posts_wonMail w
    (sendMailTo s ⟨sold.owner,.successful,(profit w sold).toUInt64,[]⟩) sold
  rw [UInt32.toNat_toUInt64] at hletters
  refine ⟨?_,(posts_sendMailTo _ _).trans hposts,fun hexact => ?_⟩
  · unfold total purses bids
    rw [hwon,hposts.money,hposts.auctions,hletters,← add_assoc]
    rfl
  · refine ⟨⟨sold.owner,.successful,(profit w sold).toUInt64,[]⟩,hposts.mails.subset ?_,rfl,rfl,?_⟩
    · exact List.mem_append_right _ List.mem_cons_self
    · rw [UInt32.toNat_toUInt64]
      exact toNat_profit hexact

/-- A buyout pays the owner and gives the bid before back. -/
theorem buyOut_lawful (hkeys : (s.auctions.map mapKey).Nodup)
    (hget : lookup mapKey (mapKey auction) s.auctions=some auction)
    (hplayer : player∈characters) (hzero : player≠0)
    (hmoney : auction.buyout ≤ s.money player) (hmax : auction.buyout ≤ MAX_MONEY_AMOUNT)
    (hexists : auction.bidder≠0 → receiverExists w auction.bidder=true)
    (howner : receiverExists w auction.owner=true)
    (hbelow : auction.bidder≠0 → auction.bid < auction.buyout) :
    (auction.bidder≠0 → auction.bidder≠player →
      Refunded .outbidded auction s (buyOut w s player auction)) ∧
    let sold := { auction with bidder := player, bid := auction.buyout }
    Exact w sold → OwnerPaid w sold (buyOut w s player auction) ∧
      total characters (buyOut w s player auction)+(w.getAuctionCut sold).toNat=
        total characters s+sold.deposit.toNat := by
  obtain ⟨hauctions,hrefund,htotal⟩ := buyerPaid_spec hplayer hzero hmoney hmax hexists hbelow
  have hbuy : buyOut w s player auction=
      closeAuction (sendAuctionWonMail w (sendAuctionSuccessfulMail w
        (sendAuctionSalePendingMail w (buyerPaid w s player auction)
          { auction with bidder := player, bid := auction.buyout })
        { auction with bidder := player, bid := auction.buyout })
        { auction with bidder := player, bid := auction.buyout })
        { auction with bidder := player, bid := auction.buyout } := rfl
  generalize buyerPaid w s player auction=paid at hauctions hrefund htotal hbuy
  have hsent : sendAuctionSalePendingMail w paid
      { auction with bidder := player, bid := auction.buyout }=
        sendMailTo paid ⟨auction.owner,.salePending,0,[]⟩ := if_pos howner
  rw [hsent] at hbuy
  have hpending : total characters (sendMailTo paid ⟨auction.owner,.salePending,0,[]⟩)=
      total characters paid := by
    unfold total
    rw [letters_sendMailTo]
    rfl
  have hsale := sale_spec (w := w) characters (sendMailTo paid ⟨auction.owner,.salePending,0,[]⟩)
    (show receiverExists w { auction with bidder := player, bid := auction.buyout }.owner=true
      from howner)
  obtain ⟨hsold,hposts,hpaid⟩ := hsale
  rw [hbuy]
  generalize sendAuctionWonMail w (sendAuctionSuccessfulMail w
    (sendMailTo paid ⟨auction.owner,.salePending,0,[]⟩)
    { auction with bidder := player, bid := auction.buyout })
    { auction with bidder := player, bid := auction.buyout }=mailed at hsold hposts hpaid ⊢
  have hsame : mailed.auctions=s.auctions := hposts.auctions.trans hauctions
  have hget' : lookup mapKey (mapKey auction) mailed.auctions=some auction := by rwa [hsame]
  have hclose := bids_closeAuction (by rwa [hsame]) hget'
  refine ⟨fun hnone hother => ?_,fun hexact => ⟨hpaid hexact,?_⟩⟩
  · obtain ⟨mails,hmails⟩ := hrefund hnone hother
    obtain ⟨rest,hrest⟩ := ((posts_sendMailTo _ _).trans hposts).mails
    refine ⟨mails++rest,?_⟩
    change mailed.mails=_
    rw [← hrest,hmails,List.append_assoc,List.cons_append]
  · have hprofit := toNat_profit hexact
    have hclosed : total characters (closeAuction mailed auction)+held auction=
        total characters mailed := by
      change purses characters mailed+bids (closeAuction mailed auction)+letters mailed+_=
        purses characters mailed+bids mailed+letters mailed
      omega
    change total characters (closeAuction mailed auction)+_=_
    dsimp only at hprofit ⊢
    omega

/-- A cancelled auction gives the bid back and costs the owner the cut. -/
theorem removeItem_lawful {house : Option House} {auctionId : ℕ}
    (hkeys : (s.auctions.map mapKey).Nodup) (hplayer : player∈characters)
    (hexists : ∀ auction∈s.auctions,auction.bidder≠0 → receiverExists w auction.bidder=true) :
    Lawful characters s (w,.removeItem player house auctionId)
      (handleAuctionRemoveItem w s player house auctionId) := by
  change handleAuctionRemoveItem w s player house auctionId=s ∨ _
  unfold handleAuctionRemoveItem
  cases hfound : house.bind fun house => getAuction s house auctionId with
  | none => exact Or.inl rfl
  | some auction =>
    obtain ⟨house',-,hauction⟩ := Option.bind_eq_some_iff.mp hfound
    have hget : lookup mapKey (mapKey auction) s.auctions=some auction := by
      rw [key_of_lookup hauction]
      exact hauction
    dsimp only
    split
    · rename_i howner
      cases getAItem s auction.itemGUIDLow with
      | none => exact Or.inl rfl
      | some item =>
        dsimp only
        split
        · exact Or.inl rfl
        rename_i hcut
        refine Or.inr ⟨auction,rfl,howner,?_⟩
        have hcut' : (w.getAuctionCut auction).toUInt64.toNat=(w.getAuctionCut auction).toNat :=
          UInt32.toNat_toUInt64 _
        have hsmall := UInt32.toNat_lt (w.getAuctionCut auction)
        have hclose : ∀ r : AuctionHouse,r.auctions=s.auctions →
            total characters (closeAuction (sendMailTo r ⟨player,.canceled,0,[item]⟩) auction)+
              held auction=total characters r := by
          intro r hr
          have hbids := bids_closeAuction (s := sendMailTo r ⟨player,.canceled,0,[item]⟩)
            (show (r.auctions.map mapKey).Nodup by rwa [hr])
            (show lookup mapKey (mapKey auction) r.auctions=some auction by rwa [hr])
          have hletters := letters_sendMailTo r ⟨player,.canceled,0,[item]⟩
          change purses characters r+bids (closeAuction _ auction)+letters (sendMailTo _ _)+_=
            purses characters r+bids r+letters r
          rw [hletters]
          change purses characters r+bids (closeAuction _ auction)+(letters r+0)+_=_
          change bids (closeAuction _ auction)+_=bids r at hbids
          omega
        by_cases hnone : auction.bidder=0
        · rw [if_neg (mt pos_iff_ne_zero.mp (not_not.mpr hnone)),if_pos hnone,add_zero]
          have hclosed := hclose s rfl
          rw [held,if_pos hnone,add_zero] at hclosed
          exact ⟨fun h => absurd hnone h,hclosed⟩
        · have hpos := pos_iff_ne_zero.mpr hnone
          have hmoney : (w.getAuctionCut auction).toUInt64 ≤ s.money player :=
            not_not.mp fun h => hcut ⟨hpos,h⟩
          have hsent : sendAuctionCancelledToBidderMail w s auction=
              sendMailTo s ⟨auction.bidder,.cancelledToBidder,auction.bid,[]⟩ :=
            if_pos (hexists auction (mem_of_lookup hget) hnone)
          rw [if_pos hpos,if_neg hnone,hsent]
          refine ⟨fun _ => ⟨[⟨player,.canceled,0,[item]⟩],?_⟩,?_⟩
          · exact List.append_assoc _ _ _
          have hclosed := hclose (pay (sendMailTo s
            ⟨auction.bidder,.cancelledToBidder,auction.bid,[]⟩) player
            (w.getAuctionCut auction).toUInt64) rfl
          have hpaid := purses_pay
            (s := sendMailTo s ⟨auction.bidder,.cancelledToBidder,auction.bid,[]⟩) hplayer
            hmoney (by omega)
          have hletters :=
            letters_sendMailTo s ⟨auction.bidder,.cancelledToBidder,auction.bid,[]⟩
          rw [held,if_neg hnone] at hclosed
          change _=purses characters (pay _ _ _)+bids s+letters (sendMailTo _ _) at hclosed
          change _=purses characters s at hpaid
          change _=letters s+auction.bid.toNat at hletters
          change _=purses characters s+bids s+letters s
          omega
    · exact Or.inl rfl

/-- What closing an auction at its time does. -/
theorem updateAuction_spec (house : House) (auctionId : ℕ)
    (hexists : ∀ auction∈s.auctions,receiverExists w auction.owner=true) :
    (updateAuction w house s auctionId).auctionId=s.auctionId ∧
    (updateAuction w house s auctionId).auctions=remove mapKey (house,auctionId) s.auctions ∧
    s.mails <+: (updateAuction w house s auctionId).mails ∧
    ∀ auction∈s.auctions,mapKey auction=(house,auctionId) → auction.bidder≠0 →
      (s.auctions.map mapKey).Nodup → Exact w auction →
      OwnerPaid w auction (updateAuction w house s auctionId) := by
  unfold updateAuction
  cases hget : getAuction s house auctionId with
  | none =>
    have hne : ∀ auction∈s.auctions,mapKey auction≠(house,auctionId) := fun auction hauction =>
      key_ne_of_lookup_none hget hauction
    exact ⟨rfl,(remove_of_forall_ne hne).symm,List.prefix_rfl,fun auction hauction hkey =>
      absurd hkey (hne auction hauction)⟩
  | some closed =>
    have hkey := key_of_lookup hget
    dsimp only
    by_cases hnone : closed.bidder=0
    · rw [if_pos hnone]
      have hposts := posts_expiredMail w s closed
      refine ⟨hposts.auctionId,?_,hposts.mails,fun auction hauction hkey' hbid hkeys => ?_⟩
      · change remove _ _ (sendAuctionExpiredMail w s closed).auctions=_
        rw [hposts.auctions,hkey]
      have heq := lookup_of_mem hkeys hauction
      rw [hkey'] at heq
      obtain rfl := Option.some.inj (hget.symm.trans heq)
      exact absurd hnone hbid
    · rw [if_neg hnone]
      have hsale := sale_spec (w := w) ∅ s (hexists closed (mem_of_lookup hget))
      obtain ⟨-,hposts,hpaid⟩ := hsale
      refine ⟨hposts.auctionId,?_,hposts.mails,fun auction hauction hkey' _ hkeys hexact => ?_⟩
      · change remove _ _ (sendAuctionWonMail w _ closed).auctions=_
        rw [hposts.auctions,hkey]
      have heq := lookup_of_mem hkeys hauction
      rw [hkey'] at heq
      obtain rfl := Option.some.inj (hget.symm.trans heq)
      exact hpaid hexact

/-- `Update` closes auctions, and those with a bid are paid to their owners. -/
theorem update_spec (house : House) (expired : List ℕ)
    (hkeys : (s.auctions.map mapKey).Nodup)
    (hexists : ∀ auction∈s.auctions,receiverExists w auction.owner=true) :
    (update w s house expired).auctionId=s.auctionId ∧
    (update w s house expired).auctions.Sublist s.auctions ∧
    s.mails <+: (update w s house expired).mails ∧
    ∀ auction∈s.auctions,auction∉(update w s house expired).auctions → auction.bidder≠0 →
      Exact w auction → OwnerPaid w auction (update w s house expired) := by
  induction expired generalizing s with
  | nil => exact ⟨rfl,List.Sublist.refl _,List.prefix_rfl,fun auction h hout => absurd h hout⟩
  | cons auctionId expired ih =>
    change (update w (updateAuction w house s auctionId) house expired).auctionId=_ ∧
      (update w (updateAuction w house s auctionId) house expired).auctions.Sublist _ ∧
      _ <+: (update w (updateAuction w house s auctionId) house expired).mails ∧
      ∀ auction∈s.auctions,
        auction∉(update w (updateAuction w house s auctionId) house expired).auctions →
        auction.bidder≠0 → Exact w auction →
        OwnerPaid w auction (update w (updateAuction w house s auctionId) house expired)
    obtain ⟨hid,hauctions,hpre,hpaid⟩ := updateAuction_spec house auctionId
      hexists
    generalize updateAuction w house s auctionId=s₁ at hid hauctions hpre hpaid
    have hsub : s₁.auctions.Sublist s.auctions := hauctions ▸ List.filter_sublist
    obtain ⟨hid',hsub',hpre',hpaid'⟩ := ih (s := s₁) (hkeys.sublist (hsub.map mapKey))
      fun auction hauction => hexists auction (hsub.subset hauction)
    refine ⟨hid'.trans hid,hsub'.trans hsub,hpre.trans hpre',
      fun auction hauction hout hbid hexact => ?_⟩
    by_cases hfirst : auction∈s₁.auctions
    · exact hpaid' auction hfirst hout hbid hexact
    have hkey : mapKey auction=(house,auctionId) := by
      by_contra hne
      exact hfirst (hauctions ▸ mem_remove.mpr ⟨hauction,hne⟩)
    obtain ⟨mail,hmail,hrest⟩ := hpaid auction hauction hkey hbid hkeys hexact
    exact ⟨mail,hpre'.subset hmail,hrest⟩

end Steps

section Kept
variable {characters : Finset UInt32} {w : World} {s s' : AuctionHouse} {player : UInt32}

theorem Proper.sublist (hproper : Proper characters s) (hsub : s'.auctions.Sublist s.auctions)
    (hid : s'.auctionId=s.auctionId) : Proper characters s' where
  keys := hproper.keys.sublist (hsub.map mapKey)
  fresh auction hauction := hid ▸ hproper.fresh auction (hsub.subset hauction)
  owner auction hauction := hproper.owner auction (hsub.subset hauction)
  bidder auction hauction := hproper.bidder auction (hsub.subset hauction)
  below auction hauction := hproper.below auction (hsub.subset hauction)

theorem placeBid_frame (w : World) (s : AuctionHouse) (player : UInt32) (auction : AuctionEntry)
    (price : UInt64) :
    (placeBid w s player auction price).auctions=
      replace mapKey { auction with bidder := player, bid := price } s.auctions ∧
    (placeBid w s player auction price).auctionId=s.auctionId := by
  unfold placeBid
  split
  · split
    · exact ⟨rfl,rfl⟩
    have hposts : Posts s (sendAuctionOutbiddedMail w s auction) := posts_if
    refine ⟨?_,hposts.auctionId⟩
    rw [← hposts.auctions]
    rfl
  · exact ⟨rfl,rfl⟩

theorem Proper.placeBid {auction : AuctionEntry} {price : UInt64}
    (hproper : Proper characters s) (hauction : auction∈s.auctions) (hplayer : player∈characters)
    (hbelow : BelowBuyout auction price) :
    Proper characters (placeBid w s player auction price) := by
  obtain ⟨hauctions,hid⟩ := placeBid_frame w s player auction price
  have hmem : ∀ changed∈(AuctionHouseModel.placeBid w s player auction price).auctions,
      changed={ auction with bidder := player, bid := price } ∨ changed∈s.auctions :=
    fun changed h => mem_of_mem_replace (hauctions ▸ h)
  refine ⟨?_,fun changed h => ?_,fun changed h => ?_,fun changed h hnone => ?_,
    fun changed h hnone hbuyout => ?_⟩
  · rw [hauctions,map_key_replace]
    exact hproper.keys
  · rw [hid]
    rcases hmem changed h with rfl | h
    · exact hproper.fresh auction hauction
    · exact hproper.fresh changed h
  · rcases hmem changed h with rfl | h
    · exact hproper.owner auction hauction
    · exact hproper.owner changed h
  · rcases hmem changed h with rfl | h
    · exact hplayer
    · exact hproper.bidder changed h hnone
  · rcases hmem changed h with rfl | h
    · exact hbelow.resolve_right hbuyout
    · exact hproper.below changed h hnone hbuyout

theorem buyOut_frame (w : World) (s : AuctionHouse) (player : UInt32) (auction : AuctionEntry) :
    (buyOut w s player auction).auctions=remove mapKey (mapKey auction) s.auctions ∧
    (buyOut w s player auction).auctionId=s.auctionId := by
  have hpaid : (buyerPaid w s player auction).auctions=s.auctions ∧
      (buyerPaid w s player auction).auctionId=s.auctionId := by
    unfold buyerPaid
    split
    · exact ⟨rfl,rfl⟩
    split
    · have hposts : Posts (pay s player auction.buyout)
          (sendAuctionOutbiddedMail w (pay s player auction.buyout) auction) := posts_if
      exact ⟨hposts.auctions,hposts.auctionId⟩
    · exact ⟨rfl,rfl⟩
  have hpending : Posts (buyerPaid w s player auction)
      (sendAuctionSalePendingMail w (buyerPaid w s player auction)
        { auction with bidder := player, bid := auction.buyout }) := posts_if
  have hsuccessful : Posts (sendAuctionSalePendingMail w (buyerPaid w s player auction)
        { auction with bidder := player, bid := auction.buyout })
      (sendAuctionSuccessfulMail w (sendAuctionSalePendingMail w (buyerPaid w s player auction)
        { auction with bidder := player, bid := auction.buyout })
        { auction with bidder := player, bid := auction.buyout }) := posts_if
  have hposts := (hpending.trans hsuccessful).trans (posts_wonMail w _
    { auction with bidder := player, bid := auction.buyout })
  refine ⟨?_,hposts.auctionId.trans hpaid.2⟩
  rw [← hpaid.1,← hposts.auctions]
  rfl

theorem removeItem_frame (w : World) (s : AuctionHouse) (player : UInt32) (house : Option House)
    (auctionId : ℕ) :
    (handleAuctionRemoveItem w s player house auctionId).auctions.Sublist s.auctions ∧
    (handleAuctionRemoveItem w s player house auctionId).auctionId=s.auctionId := by
  unfold handleAuctionRemoveItem
  split
  · exact ⟨List.Sublist.refl _,rfl⟩
  rename_i auction _
  split
  · split
    · exact ⟨List.Sublist.refl _,rfl⟩
    dsimp only
    split
    · exact ⟨List.Sublist.refl _,rfl⟩
    split
    · have hposts : Posts s (sendAuctionCancelledToBidderMail w s auction) := posts_if
      refine ⟨?_,hposts.auctionId⟩
      rw [← hposts.auctions]
      exact List.filter_sublist
    · exact ⟨List.filter_sublist,rfl⟩
  · exact ⟨List.Sublist.refl _,rfl⟩

theorem cloneItem_frame {item newItem : Item} {count : UInt32}
    (h : cloneItem w s item count=some (s',newItem)) :
    s'.auctions=s.auctions ∧ s'.auctionId=s.auctionId := by
  unfold cloneItem at h
  split at h
  · cases h
  · obtain ⟨rfl,-⟩ := Prod.mk.inj (Option.some.inj h)
    unfold generateLowGuid
    split <;> exact ⟨rfl,rfl⟩

theorem takeCounts_frame (player : UInt32) (s : AuctionHouse) (items : List (Item×UInt32)) :
    (takeCounts player s items).auctions=s.auctions ∧
    (takeCounts player s items).auctionId=s.auctionId := by
  fun_induction takeCounts player s items with
  | case1 => exact ⟨rfl,rfl⟩
  | case2 s item rest ih => exact ih
  | case3 s item count rest hne ih => exact ih

/-- A sale adds at most one auction without a bid. -/
theorem sellItem_frame (w : World) (s : AuctionHouse) (player : UInt32) (house : Option House)
    (itemGUIDs : List (ℕ×UInt32)) (bid buyout : UInt64) (etime deposit : UInt32) :
    (handleAuctionSellItem w s player house itemGUIDs bid buyout etime deposit).1.auctions=
        s.auctions ∧
      s.auctionId ≤
        (handleAuctionSellItem w s player house itemGUIDs bid buyout etime deposit).1.auctionId ∨
    (handleAuctionSellItem w s player house itemGUIDs bid buyout etime deposit).1.auctionId=
        s.auctionId+1 ∧
      ∃ AH : AuctionEntry,AH.Id=s.auctionId ∧ AH.owner=player ∧ AH.bidder=0 ∧
        (handleAuctionSellItem w s player house itemGUIDs bid buyout etime deposit).1.auctions=
          remove mapKey (mapKey AH) s.auctions++[AH] := by
  unfold handleAuctionSellItem
  split
  · exact Or.inl ⟨rfl,le_rfl⟩
  split
  · split
    · exact Or.inl ⟨rfl,le_rfl⟩
    extract_lets paid AH added
    split
    · exact Or.inr ⟨rfl,AH,rfl,rfl,rfl,rfl⟩
    split
    · exact Or.inl ⟨rfl,Nat.le_succ _⟩
    rename_i cloned newItem hclone
    obtain ⟨hauctions,hid⟩ := cloneItem_frame hclone
    rw [(takeCounts_frame _ _ _).1,(takeCounts_frame _ _ _).2]
    refine Or.inr ⟨hid,{ AH with itemGUIDLow := newItem.guid },rfl,rfl,rfl,?_⟩
    change remove _ _ cloned.auctions++_=_
    rw [hauctions]
  · exact Or.inl ⟨rfl,le_rfl⟩

/-- Prices that fit their columns come back. -/
theorem restart_eq (h : ∀ auction∈s.auctions,
    auction.bid.toNat < 2^32 ∧ auction.buyout.toNat < 2^32 ∧ auction.startbid.toNat < 2^32) :
    restart s=s := by
  have hword : ∀ word : UInt64,word.toNat < 2^32 → word.toUInt32.toUInt64=word := by
    intro word hlt
    apply UInt64.toNat_inj.mp
    rw [UInt32.toNat_toUInt64,UInt64.toNat_toUInt32,Nat.mod_eq_of_lt hlt]
  have hmap : s.auctions.map (fun auction => loadFromDB (saveToDB auction))=s.auctions := by
    refine (List.map_congr_left fun auction hauction => ?_).trans s.auctions.map_id
    obtain ⟨hbid,hbuyout,hstart⟩ := h auction hauction
    unfold loadFromDB saveToDB
    rw [hword _ hbid,hword _ hbuyout,hword _ hstart]
    rfl
  unfold restart
  rw [hmap]

/-- A run of existing characters keeps the auctions proper. -/
theorem Proper.step (hproper : Proper characters s) {step : World×AuctionOp}
    (hregular : Regular characters s step) : Proper characters (apply step.1 s step.2) := by
  obtain ⟨w,op⟩ := step
  obtain ⟨hexists,hop⟩ := hregular
  cases op with
  | sellItem player house itemGUIDs bid buyout etime deposit =>
    rcases sellItem_frame w s player house itemGUIDs bid buyout etime deposit with
      ⟨hauctions,hid⟩ | ⟨hid,AH,hnew,howner,hbidder,hauctions⟩
    · exact ⟨hauctions ▸ hproper.keys,fun auction h =>
        (hproper.fresh auction (hauctions ▸ h)).trans_le hid,hauctions ▸ hproper.owner,
        hauctions ▸ hproper.bidder,hauctions ▸ hproper.below⟩
    · have hmem : ∀ auction∈(apply w s
          (.sellItem player house itemGUIDs bid buyout etime deposit)).auctions,
          auction∈s.auctions ∨ auction=AH := by
        intro auction hauction
        change auction∈(handleAuctionSellItem w s player house itemGUIDs bid buyout etime
          deposit).1.auctions at hauction
        rw [hauctions] at hauction
        exact (List.mem_append.mp hauction).imp (fun h => (mem_remove.mp h).1)
          List.mem_singleton.mp
      refine ⟨?_,fun auction hauction => ?_,fun auction hauction => ?_,
        fun auction hauction hnone => ?_,fun auction hauction hnone => ?_⟩
      · change ((handleAuctionSellItem w s player house itemGUIDs bid buyout etime
          deposit).1.auctions.map mapKey).Nodup
        rw [hauctions,List.map_append,List.nodup_append]
        refine ⟨nodup_remove hproper.keys _,List.nodup_singleton _,?_⟩
        rintro key hkey key' hkey' rfl
        obtain ⟨auction,hauction,rfl⟩ := List.mem_map.mp hkey
        exact (mem_remove.mp hauction).2 (List.mem_singleton.mp hkey')
      · change auction.Id < (handleAuctionSellItem w s player house itemGUIDs bid buyout etime
          deposit).1.auctionId
        rw [hid]
        rcases hmem auction hauction with h | rfl
        · exact (hproper.fresh auction h).trans (Nat.lt_succ_self _)
        · exact hnew ▸ Nat.lt_succ_self _
      · rcases hmem auction hauction with h | rfl
        · exact hproper.owner auction h
        · exact howner ▸ hop
      · rcases hmem auction hauction with h | rfl
        · exact hproper.bidder auction h hnone
        · exact absurd hbidder hnone
      · rcases hmem auction hauction with h | rfl
        · exact hproper.below auction h hnone
        · exact absurd hbidder hnone
  | placeBid player house auctionId price =>
    change Proper characters (handleAuctionPlaceBid w s player house auctionId price)
    unfold handleAuctionPlaceBid
    split
    · exact hproper
    split
    · exact hproper
    rename_i auction hfound
    obtain ⟨house',-,hauction⟩ := Option.bind_eq_some_iff.mp hfound
    split
    · exact hproper
    split
    · rename_i hbelow
      exact hproper.placeBid (mem_of_lookup hauction) hop.1 hbelow
    · obtain ⟨hauctions,hid⟩ := buyOut_frame w s player auction
      exact hproper.sublist (hauctions ▸ List.filter_sublist) hid
  | removeItem player house auctionId =>
    obtain ⟨hsub,hid⟩ := removeItem_frame w s player house auctionId
    exact hproper.sublist hsub hid
  | update house expired =>
    obtain ⟨hid,hsub,-⟩ := update_spec (w := w) house expired hproper.keys
      fun auction hauction => hexists auction.owner (hproper.owner auction hauction)
    exact hproper.sublist hsub hid
  | restart =>
    change Proper characters (restart s)
    rw [restart_eq hop]
    exact hproper

theorem Proper.lawful (hproper : Proper characters s) {step : World×AuctionOp}
    (hregular : Regular characters s step) : Lawful characters s step (apply step.1 s step.2) := by
  obtain ⟨w,op⟩ := step
  obtain ⟨hexists,hop⟩ := hregular
  have hbidder : ∀ auction∈s.auctions,auction.bidder≠0 → receiverExists w auction.bidder=true :=
    fun auction hauction hnone => hexists _ (hproper.bidder auction hauction hnone)
  cases op with
  | sellItem player house itemGUIDs bid buyout etime deposit => trivial
  | placeBid player house auctionId price =>
    obtain ⟨hplayer,hnone,hmax⟩ := hop
    change Lawful characters s (w,.placeBid player house auctionId price)
      (handleAuctionPlaceBid w s player house auctionId price)
    unfold Lawful handleAuctionPlaceBid
    dsimp only
    cases hfound : house.bind fun house => getAuction s house auctionId with
    | none => exact ite_self _
    | some auction =>
      obtain ⟨house',-,hauction⟩ := Option.bind_eq_some_iff.mp hfound
      have hget : lookup mapKey (mapKey auction) s.auctions=some auction := by
        rw [key_of_lookup hauction]
        exact hauction
      have hmem := mem_of_lookup hget
      dsimp only
      by_cases hpacket : auctionId=0 ∨ price=0
      · rw [if_pos hpacket,if_pos (hpacket.elim Or.inl fun h => Or.inr (Or.inl h))]
      rw [if_neg hpacket]
      cases haccepted : bidAccepted s player auction price with
      | false =>
        rw [if_pos (Or.inr (Or.inr rfl))]
        rfl
      | true =>
        rw [if_neg (by tauto),if_neg (by decide)]
        by_cases hbelow : BelowBuyout auction price
        · rw [if_pos hbelow,if_pos hbelow]
          exact placeBid_lawful hproper.keys hget hplayer hnone hmax (hbidder auction hmem)
            haccepted
        · rw [if_neg hbelow,if_neg hbelow]
          obtain ⟨hge,hbuyout⟩ := not_or.mp hbelow
          have hle := UInt64.le_iff_toNat_le.mp (UInt64.not_lt.mp hge)
          have hmoney := UInt64.le_iff_toNat_le.mp (bidAccepted_spec haccepted).2.2
          have hmax' := UInt64.le_iff_toNat_le.mp hmax
          exact buyOut_lawful hproper.keys hget hplayer hnone
            (UInt64.le_iff_toNat_le.mpr (hle.trans hmoney))
            (UInt64.le_iff_toNat_le.mpr (hle.trans hmax')) (hbidder auction hmem)
            (hexists _ (hproper.owner auction hmem))
            fun h => hproper.below auction hmem h hbuyout
  | removeItem player house auctionId => exact removeItem_lawful hproper.keys hop hbidder
  | update house expired =>
    exact (update_spec house expired hproper.keys fun auction hauction =>
      hexists auction.owner (hproper.owner auction hauction)).2.2.2
  | restart => exact restart_eq hop

end Kept

/-- In every run of existing characters every operation is lawful. -/
theorem auction_money (characters : Finset UInt32) (s : AuctionHouse)
    (steps : List (World×AuctionOp)) (hproper : Proper characters s)
    (hrun : Meets (fun s step => apply step.1 s step.2) (Regular characters) s steps) :
    ∀ before step after,steps=before++step::after →
      Lawful characters (run (fun s step => apply step.1 s step.2) s before) step
        (run (fun s step => apply step.1 s step.2) s (before++[step])) := by
  rintro before step after rfl
  have hstep : ∀ s step,Proper characters s → Regular characters s step →
      Proper characters (apply step.1 s step.2) := fun s step hp hr => hp.step hr
  obtain ⟨hp,hr⟩ := run_step hstep hproper hrun
  rw [run_append]
  exact hp.lawful hr

/-- Two characters that exist, and a cut of nothing. -/
def quietWorld : World where
  online := fun player => player=2
  account := fun player => player
  logTrade := false
  getAuctionCut := fun _ => 0
  maxStackSize := fun _ => 20
  conjured := fun _ => false

/-- An auction with a deposit, for 100 to begin with or for 1000 at once. -/
def oneAuction : AuctionHouse where
  money := fun _ => 5000
  inventory := []
  aitems := [⟨7,1,1,true,false,0⟩]
  auctions := [⟨.neutral,1,7,1,100,0,1000,0,60⟩]
  mails := []
  auctionId := 2
  freeItemGuid := []
  hiItemGuid := 8

theorem proper_oneAuction : Proper {1,2} oneAuction :=
  ⟨by decide,by decide,by decide,by decide,by decide⟩

theorem exists_quietWorld : ∀ player∈({1,2} : Finset UInt32),
    receiverExists quietWorld player=true := by
  intro player hplayer
  rcases Finset.mem_insert.mp hplayer with rfl | hplayer
  · decide
  · obtain rfl := Finset.mem_singleton.mp hplayer
    decide

/-- A first bid is held by the auction. -/
theorem auction_money_bid :
    total {1,2} (apply quietWorld oneAuction (.placeBid 2 (some .neutral) 1 200))=
      total {1,2} oneAuction := by
  have hlawful := auction_money {1,2} oneAuction [(quietWorld,.placeBid 2 (some .neutral) 1 200)]
    proper_oneAuction ⟨⟨exists_quietWorld,by decide,by decide,by decide⟩,trivial⟩ [] _ [] rfl
  exact hlawful.2

/-- A buyout pays the deposit out. -/
theorem buyout_pays_deposit :
    ¬∀ (characters : Finset UInt32) (s : AuctionHouse) (step : World×AuctionOp),
      0∉characters → Proper characters s → Regular characters s step →
      (∃ player house auctionId price,step.2=.placeBid player house auctionId price) →
      total characters (apply step.1 s step.2)=total characters s := by
  intro h
  have heq := h {1,2} oneAuction (quietWorld,.placeBid 2 (some .neutral) 1 1000) (by decide)
    proper_oneAuction ⟨exists_quietWorld,by decide,by decide,by decide⟩ ⟨2,_,1,1000,rfl⟩
  revert heq
  decide

end Projectnelth.AuctionHouseMoney
