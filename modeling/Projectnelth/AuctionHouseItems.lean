import Mathlib
import Projectnelth.AuctionHouseMoney

/-!
# The items of the auction houses

A sale takes the listed counts from the seller and makes one auction item of them.
From then on the item is registered for one open auction or lies in one mail. The
mail to a winner who is offline is sent only where trades are logged: the account
is looked up for the log and decides about the mail.
-/

namespace Projectnelth.AuctionHouseItems

open KeyedList PlayerMoney AuctionHouseModel AuctionHouseMoney RunInvariant

/-- The guids of the items of the players. -/
def owned (s : AuctionHouse) : List ℕ := s.inventory.map fun held => held.2.guid

/-- The guids of the registered items. -/
def registered (s : AuctionHouse) : List ℕ := s.aitems.map Item.guid

/-- The guids of the items of the open auctions. -/
def auctioned (s : AuctionHouse) : List ℕ := s.auctions.map AuctionEntry.itemGUIDLow

/-- The guids of the items inside mails. -/
def mailed (s : AuctionHouse) : List ℕ := (s.mails.flatMap Mail.items).map Item.guid

/-- All guids, the free ones included. -/
def guids (s : AuctionHouse) : List ℕ := owned s++(registered s++mailed s)++s.freeItemGuid

/-- Every item has its place, and every auction its item. -/
structure Accounted (s : AuctionHouse) : Prop where
  /-- No place of the maps is taken twice. -/
  keys : (s.auctions.map mapKey).Nodup
  /-- The ids are used up. -/
  fresh : ∀ auction∈s.auctions,auction.Id < s.auctionId
  registry : (auctioned s).Perm (registered s)
  /-- No guid is twice anywhere. -/
  apart : (guids s).Nodup
  used : ∀ guid∈guids s,guid < s.hiItemGuid

/-- The item is registered for one open auction or lies in one mail. -/
structure InOnePlace (s : AuctionHouse) (guid : ℕ) : Prop where
  once : (auctioned s).count guid+(mailed s).count guid=1
  registered : (registered s).count guid=(auctioned s).count guid
  owned : guid∉owned s

/-- At most money and mails have changed. -/
structure Frame (s s' : AuctionHouse) : Prop where
  /-- The items of the players. -/
  inventory : s'.inventory=s.inventory
  /-- The items in auctions. -/
  aitems : s'.aitems=s.aitems
  auctions : s'.auctions=s.auctions
  auctionId : s'.auctionId=s.auctionId
  freeItemGuid : s'.freeItemGuid=s.freeItemGuid
  hiItemGuid : s'.hiItemGuid=s.hiItemGuid

section Accounted
variable {w : World} {s s' : AuctionHouse} {auction : AuctionEntry} {item : Item} {guid : ℕ}

theorem frame_of_posts (h : Posts s s') : Frame s s' :=
  ⟨h.inventory,h.aitems,h.auctions,h.auctionId,h.freeItemGuid,h.hiItemGuid⟩

theorem frame_pay (s : AuctionHouse) (player : UInt32) (amount : UInt64) :
    Frame s (pay s player amount) := ⟨rfl,rfl,rfl,rfl,rfl,rfl⟩

theorem Frame.trans {s'' : AuctionHouse} (h : Frame s s') (h' : Frame s' s'') : Frame s s'' :=
  ⟨h'.inventory.trans h.inventory,h'.aitems.trans h.aitems,h'.auctions.trans h.auctions,
    h'.auctionId.trans h.auctionId,h'.freeItemGuid.trans h.freeItemGuid,
    h'.hiItemGuid.trans h.hiItemGuid⟩

theorem mailed_sendMailTo (s : AuctionHouse) (mail : Mail) :
    mailed (sendMailTo s mail)=mailed s++mail.items.map Item.guid := by
  unfold mailed sendMailTo
  rw [List.flatMap_append,List.map_append]
  simp

theorem Accounted.inOnePlace (h : Accounted s) (hguid : guid∈registered s++mailed s) :
    InOnePlace s guid := by
  have hcount := List.count_eq_one_of_mem h.apart
    (List.mem_append_left _ (List.mem_append_right (owned s) hguid))
  have hpos := List.count_pos_iff.mpr hguid
  unfold guids at hcount
  simp only [List.count_append] at hcount hpos
  have hregistry := h.registry.count_eq guid
  exact ⟨by omega,hregistry.symm,List.count_eq_zero.mp (by omega)⟩

theorem Accounted.exists_item (h : Accounted s) (hauction : auction∈s.auctions) :
    ∃ item,getAItem s auction.itemGUIDLow=some item ∧ item.guid=auction.itemGUIDLow := by
  have hmem := h.registry.subset (List.mem_map_of_mem hauction)
  obtain ⟨item,hitem,hguid⟩ := List.mem_map.mp hmem
  have hnodup : (s.aitems.map Item.guid).Nodup :=
    (List.nodup_append.mp (List.nodup_append.mp (List.nodup_append.mp h.apart).1).2.1).1
  exact ⟨item,hguid ▸ lookup_of_mem hnodup hitem,hguid⟩

theorem Accounted.close (h : Accounted s)
    (hget : lookup mapKey (mapKey auction) s.auctions=some auction)
    (hitem : getAItem s auction.itemGUIDLow=some item) (hframe : Frame s s')
    (hmailed : mailed s'=mailed s++[item.guid]) :
    Accounted (closeAuction s' auction) ∧
      ∀ guid∈registered s++mailed s,
        guid∈registered (closeAuction s' auction)++mailed (closeAuction s' auction) := by
  have hguid := key_of_lookup hitem
  have hnodup : (s.aitems.map Item.guid).Nodup :=
    (List.nodup_append.mp (List.nodup_append.mp (List.nodup_append.mp h.apart).1).2.1).1
  have hauctions : (auctioned s).Perm (auction.itemGUIDLow::auctioned (closeAuction s' auction)) := by
    have hperm := (perm_cons_remove h.keys hget).map AuctionEntry.itemGUIDLow
    rw [← hframe.auctions] at hperm
    unfold auctioned
    rw [← hframe.auctions]
    exact hperm
  have haitems : (registered s).Perm (item.guid::registered (closeAuction s' auction)) := by
    have hperm := (perm_cons_remove hnodup hitem).map Item.guid
    rw [← hframe.aitems] at hperm
    unfold registered
    rw [← hframe.aitems]
    exact hperm
  have hmails : mailed (closeAuction s' auction)=mailed s++[item.guid] := hmailed
  have hperm : (guids (closeAuction s' auction)).Perm (guids s) := by
    have howned : owned (closeAuction s' auction)=owned s := by
      unfold owned
      rw [← hframe.inventory]
      rfl
    have hfree : (closeAuction s' auction).freeItemGuid=s.freeItemGuid := hframe.freeItemGuid
    refine List.perm_iff_count.mpr fun guid => ?_
    have hcount := haitems.count_eq guid
    unfold guids
    rw [howned,hfree,hmails]
    simp only [List.count_append,List.count_cons,List.count_nil] at hcount ⊢
    omega
  refine ⟨⟨?_,fun other hother => ?_,?_,hperm.nodup_iff.mpr h.apart,fun guid hmem => ?_⟩,
    fun guid hmem => ?_⟩
  · exact nodup_remove (hframe.auctions ▸ h.keys) _
  · have hmem : other∈s'.auctions := (mem_remove.mp hother).1
    rw [hframe.auctions] at hmem
    exact (h.fresh other hmem).trans_eq hframe.auctionId.symm
  · rw [hguid] at haitems
    exact (hauctions.symm.trans (h.registry.trans haitems)).cons_inv
  · exact (h.used guid (hperm.subset hmem)).trans_eq hframe.hiItemGuid.symm
  rw [hmails]
  rcases List.mem_append.mp hmem with hmem | hmem
  · rcases List.mem_cons.mp (haitems.subset hmem) with rfl | hmem
    · exact List.mem_append_right _ (List.mem_append_right _ List.mem_cons_self)
    · exact List.mem_append_left _ hmem
  · exact List.mem_append_right _ (List.mem_append_left _ hmem)

end Accounted

/-- The item of an auction has gone to its owner or to the buyer. -/
def Delivered (s : AuctionHouse) (buyer : UInt32) (auction : AuctionEntry) (s' : AuctionHouse) :
    Prop :=
  ∃ item∈s.aitems,item.guid=auction.itemGUIDLow ∧
    ∃ mail∈s'.mails,mail.items=[item] ∧ (mail.receiver=auction.owner ∨ mail.receiver=buyer)

/-- A step that loses no item: those in auctions and mails stay there, and
the items of the auctions it closes are delivered. -/
structure Keeps (s : AuctionHouse) (buyer : AuctionEntry → UInt32) (s' : AuctionHouse) : Prop where
  /-- Everything has its place after it. -/
  accounted : Accounted s'
  /-- Nothing is lost. -/
  kept : ∀ guid∈registered s++mailed s,guid∈registered s'++mailed s'
  delivered : ∀ auction∈s.auctions,mapKey auction∉s'.auctions.map mapKey →
    Delivered s (buyer auction) auction s'

section Steps
variable {w : World} {s s' : AuctionHouse} {player : UInt32} {auction : AuctionEntry}
  {buyer : AuctionEntry → UInt32}

theorem Keeps.refl (h : Accounted s) : Keeps s buyer s :=
  ⟨h,fun _ => id,fun _ hauction hout => absurd (List.mem_map_of_mem hauction) hout⟩

theorem mailed_if {sent : Bool} {mail : Mail} (hitems : mail.items=[]) :
    mailed (if sent then sendMailTo s mail else s)=mailed s := by
  cases sent with
  | true =>
    change mailed (sendMailTo s mail)=_
    rw [mailed_sendMailTo,hitems]
    exact List.append_nil _
  | false => rfl

/-- The mail to the winner, where it is sent. -/
theorem wonMail_eq {item : Item} (hitem : getAItem s auction.itemGUIDLow=some item)
    (h : w.online auction.bidder=true ∨ w.logTrade=true ∧ w.account auction.bidder≠0) :
    sendAuctionWonMail w s auction=sendMailTo s ⟨auction.bidder,.won,0,[item]⟩ := by
  unfold sendAuctionWonMail
  rw [hitem]
  dsimp only
  rcases h with honline | ⟨hlog,haccount⟩
  · rw [honline]
    rfl
  · rw [if_pos hlog,if_pos]
    rw [Bool.or_eq_true,bne_iff_ne]
    exact Or.inr haccount

theorem keeps_close {item : Item} {mail : Mail} (h : Accounted s)
    (hget : lookup mapKey (mapKey auction) s.auctions=some auction)
    (hitem : getAItem s auction.itemGUIDLow=some item) (hframe : Frame s s')
    (hmailed : mailed s'=mailed s) (hmail : mail.items=[item])
    (hreceiver : mail.receiver=auction.owner ∨ mail.receiver=buyer auction) :
    Keeps s buyer (closeAuction (sendMailTo s' mail) auction) := by
  have hsent : Frame s (sendMailTo s' mail) :=
    hframe.trans (frame_of_posts (posts_sendMailTo s' mail))
  obtain ⟨haccounted,hkept⟩ := h.close hget hitem hsent (by
    rw [mailed_sendMailTo,hmailed,hmail]
    rfl)
  refine ⟨haccounted,hkept,fun other hother hout => ?_⟩
  have hkey : mapKey other=mapKey auction := by
    by_contra hne
    refine hout (List.mem_map_of_mem (mem_remove.mpr ⟨?_,hne⟩))
    change other∈s'.auctions
    rw [hframe.auctions]
    exact hother
  obtain rfl : other=auction := List.inj_on_of_nodup_map h.keys hother (mem_of_lookup hget) hkey
  exact ⟨item,mem_of_lookup hitem,key_of_lookup hitem,mail,List.mem_append_right _
    List.mem_cons_self,hmail,hreceiver⟩

/-- A bid moves no item. -/
theorem keeps_placeBid {price : UInt64} (h : Accounted s)
    (hget : lookup mapKey (mapKey auction) s.auctions=some auction) :
    Keeps s buyer (placeBid w s player auction price) := by
  have hsame : ∀ r : AuctionHouse,Frame s r → mailed r=mailed s →
      Keeps s buyer (setAuction r { auction with bidder := player, bid := price }) := by
    intro r hframe hmailed
    have hauctions : (setAuction r { auction with bidder := player, bid := price }).auctions=
        replace mapKey { auction with bidder := player, bid := price } s.auctions :=
      congrArg _ hframe.auctions
    have hkeys : (setAuction r { auction with bidder := player, bid := price }).auctions.map mapKey=
        s.auctions.map mapKey := by
      rw [hauctions]
      exact map_key_replace _ _
    have hauctioned : auctioned (setAuction r { auction with bidder := player, bid := price })=
        auctioned s := by
      unfold auctioned
      rw [hauctions]
      exact map_replace AuctionEntry.itemGUIDLow h.keys hget rfl
    have hregistered : registered (setAuction r { auction with bidder := player, bid := price })=
        registered s := congrArg (List.map Item.guid) hframe.aitems
    have hmails : mailed (setAuction r { auction with bidder := player, bid := price })=
        mailed s := hmailed
    have hguids : guids (setAuction r { auction with bidder := player, bid := price })=guids s := by
      unfold guids
      rw [hregistered,hmails]
      change r.inventory.map _++_++r.freeItemGuid=_
      rw [hframe.inventory,hframe.freeItemGuid]
      rfl
    refine ⟨⟨hkeys ▸ h.keys,fun other hother => ?_,by rw [hauctioned,hregistered]; exact h.registry,
      hguids ▸ h.apart,fun guid hguid => ?_⟩,fun guid hguid => ?_,fun other hother hout => ?_⟩
    · rw [hauctions] at hother
      change other.Id < r.auctionId
      rw [hframe.auctionId]
      rcases mem_of_mem_replace hother with rfl | hother
      · exact h.fresh auction (mem_of_lookup hget)
      · exact h.fresh other hother
    · rw [hguids] at hguid
      exact (h.used guid hguid).trans_eq hframe.hiItemGuid.symm
    · rw [hregistered,hmails]
      exact hguid
    · rw [hkeys] at hout
      exact absurd (List.mem_map_of_mem hother) hout
  unfold placeBid
  dsimp only
  split
  · split
    · exact hsame _ (frame_pay _ _ _) rfl
    · exact hsame _ ((frame_of_posts posts_if).trans (frame_pay _ _ _)) (mailed_if rfl)
  · exact hsame _ (frame_pay _ _ _) rfl

theorem keeps_buyOut (h : Accounted s)
    (hget : lookup mapKey (mapKey auction) s.auctions=some auction)
    (honline : w.online player=true) : Keeps s (fun _ => player) (buyOut w s player auction) := by
  obtain ⟨item,hitem,-⟩ := h.exists_item (mem_of_lookup hget)
  have hbuy : buyOut w s player auction=
      closeAuction (sendAuctionWonMail w (sendAuctionSuccessfulMail w
        (sendAuctionSalePendingMail w (buyerPaid w s player auction)
          { auction with bidder := player, bid := auction.buyout })
        { auction with bidder := player, bid := auction.buyout })
        { auction with bidder := player, bid := auction.buyout }) auction := rfl
  have hpaid : Frame s (buyerPaid w s player auction) ∧
      mailed (buyerPaid w s player auction)=mailed s := by
    unfold buyerPaid
    split
    · exact ⟨frame_pay _ _ _,rfl⟩
    · split
      · exact ⟨(frame_pay _ _ _).trans (frame_of_posts posts_if),mailed_if rfl⟩
      · exact ⟨frame_pay _ _ _,rfl⟩
  generalize buyerPaid w s player auction=paid at hbuy hpaid
  have hpending : Frame paid (sendAuctionSalePendingMail w paid
      { auction with bidder := player, bid := auction.buyout }) ∧
      mailed (sendAuctionSalePendingMail w paid
        { auction with bidder := player, bid := auction.buyout })=mailed paid :=
    ⟨frame_of_posts posts_if,mailed_if rfl⟩
  generalize sendAuctionSalePendingMail w paid
    { auction with bidder := player, bid := auction.buyout }=pending at hbuy hpending
  have hsuccessful : Frame pending (sendAuctionSuccessfulMail w pending
      { auction with bidder := player, bid := auction.buyout }) ∧
      mailed (sendAuctionSuccessfulMail w pending
        { auction with bidder := player, bid := auction.buyout })=mailed pending :=
    ⟨frame_of_posts posts_if,mailed_if rfl⟩
  generalize sendAuctionSuccessfulMail w pending
    { auction with bidder := player, bid := auction.buyout }=successful at hbuy hsuccessful
  have hframe := (hpaid.1.trans hpending.1).trans hsuccessful.1
  have hitem' : getAItem successful auction.itemGUIDLow=some item := by
    unfold getAItem
    rw [hframe.aitems]
    exact hitem
  have hwon : sendAuctionWonMail w successful
      { auction with bidder := player, bid := auction.buyout }=
        sendMailTo successful ⟨player,.won,0,[item]⟩ := wonMail_eq hitem' (Or.inl honline)
  rw [hbuy,hwon]
  exact keeps_close h hget hitem hframe
    (hsuccessful.2.trans (hpending.2.trans hpaid.2)) rfl (Or.inr rfl)

/-- A cancellation sends the item back. -/
theorem keeps_removeItem {house : Option House} {auctionId : ℕ} (h : Accounted s) :
    Keeps s buyer (handleAuctionRemoveItem w s player house auctionId) := by
  unfold handleAuctionRemoveItem
  split
  · exact .refl h
  rename_i auction hfound
  obtain ⟨house',-,hauction⟩ := Option.bind_eq_some_iff.mp hfound
  have hget : lookup mapKey (mapKey auction) s.auctions=some auction := by
    rw [key_of_lookup hauction]
    exact hauction
  split
  · rename_i howner
    split
    · exact .refl h
    rename_i item hitem
    dsimp only
    split
    · exact .refl h
    split
    · exact keeps_close h hget hitem
        ((frame_of_posts posts_if).trans (frame_pay _ _ _)) (mailed_if rfl) rfl
        (Or.inl howner.symm)
    · exact keeps_close h hget hitem (frame_of_posts (.refl s)) rfl rfl (Or.inl howner.symm)
  · exact .refl h

/-- The winner gets the mail, if there is a winner. -/
def WinnerReached (w : World) (auction : AuctionEntry) : Prop :=
  auction.bidder=0 ∨ w.online auction.bidder=true ∨ w.logTrade=true ∧ w.account auction.bidder≠0

/-- An auction at its end sends the item to the winner or back. -/
theorem keeps_updateAuction (house : House) (auctionId : ℕ) (h : Accounted s)
    (howner : ∀ auction∈s.auctions,receiverExists w auction.owner=true)
    (hwinner : ∀ auction∈s.auctions,mapKey auction=(house,auctionId) → WinnerReached w auction) :
    Keeps s AuctionEntry.bidder (updateAuction w house s auctionId) ∧
    (updateAuction w house s auctionId).auctions.Sublist s.auctions ∧
    (updateAuction w house s auctionId).aitems.Sublist s.aitems ∧
    s.mails <+: (updateAuction w house s auctionId).mails := by
  unfold updateAuction
  cases hfound : getAuction s house auctionId with
  | none => exact ⟨.refl h,List.Sublist.refl _,List.Sublist.refl _,List.prefix_rfl⟩
  | some closed =>
    have hget : lookup mapKey (mapKey closed) s.auctions=some closed := by
      rw [key_of_lookup hfound]
      exact hfound
    have hmem := mem_of_lookup hget
    obtain ⟨item,hitem,-⟩ := h.exists_item hmem
    dsimp only
    by_cases hnone : closed.bidder=0
    · have hsent : sendAuctionExpiredMail w s closed=
          sendMailTo s ⟨closed.owner,.expired,0,[item]⟩ := by
        unfold sendAuctionExpiredMail
        rw [hitem]
        exact if_pos (howner closed hmem)
      rw [if_pos hnone,hsent]
      exact ⟨keeps_close h hget hitem (frame_of_posts (.refl s)) rfl rfl (Or.inl rfl),
        List.filter_sublist,List.filter_sublist,List.prefix_append _ _⟩
    · have hposts : Posts s (sendAuctionSuccessfulMail w s closed) := posts_if
      have hmailed : mailed (sendAuctionSuccessfulMail w s closed)=mailed s := mailed_if rfl
      generalize sendAuctionSuccessfulMail w s closed=successful at hposts hmailed
      have hitem' : getAItem successful closed.itemGUIDLow=some item := by
        unfold getAItem
        rw [hposts.aitems]
        exact hitem
      rw [if_neg hnone,wonMail_eq hitem'
        ((hwinner closed hmem (key_of_lookup hfound)).resolve_left hnone)]
      refine ⟨keeps_close h hget hitem (frame_of_posts hposts) hmailed rfl (Or.inr rfl),?_,?_,
        hposts.mails.trans (List.prefix_append _ _)⟩
      · rw [← hposts.auctions]
        exact List.filter_sublist
      · rw [← hposts.aitems]
        exact List.filter_sublist

/-- `Update` sends every item somewhere. -/
theorem keeps_update {house : House} {expired : List ℕ} (h : Accounted s)
    (howner : ∀ auction∈s.auctions,receiverExists w auction.owner=true)
    (hwinner : ∀ auction∈s.auctions,auction.house=house → auction.Id∈expired →
      WinnerReached w auction) :
    Keeps s AuctionEntry.bidder (update w s house expired) ∧
    (update w s house expired).auctions.Sublist s.auctions ∧
    s.mails <+: (update w s house expired).mails := by
  induction expired generalizing s with
  | nil => exact ⟨.refl h,List.Sublist.refl _,List.prefix_rfl⟩
  | cons auctionId expired ih =>
    change Keeps s _ (update w (updateAuction w house s auctionId) house expired) ∧
      (update w (updateAuction w house s auctionId) house expired).auctions.Sublist _ ∧ _ <+: (update w (updateAuction w house s auctionId) house expired).mails
    obtain ⟨hkeeps,hauctions,haitems,hmails⟩ := keeps_updateAuction house auctionId h howner
      fun auction hauction hkey => hwinner auction hauction (Prod.mk.inj hkey).1
        ((Prod.mk.inj hkey).2 ▸ List.mem_cons_self)
    generalize updateAuction w house s auctionId=s₁ at hkeeps hauctions haitems hmails
    obtain ⟨hkeeps',hauctions',hmails'⟩ := ih (s := s₁) hkeeps.accounted
      (fun auction hauction => howner auction (hauctions.subset hauction))
      fun auction hauction hhouse hid =>
        hwinner auction (hauctions.subset hauction) hhouse (List.mem_cons_of_mem _ hid)
    refine ⟨⟨hkeeps'.accounted,fun guid hguid => hkeeps'.kept guid (hkeeps.kept guid hguid),
      fun auction hauction hout => ?_⟩,hauctions'.trans hauctions,hmails.trans hmails'⟩
    by_cases hopen : mapKey auction∈s₁.auctions.map mapKey
    · obtain ⟨other,hother,hkey⟩ := List.mem_map.mp hopen
      obtain rfl : other=auction :=
        List.inj_on_of_nodup_map h.keys (hauctions.subset hother) hauction hkey
      obtain ⟨item,hitem,hrest⟩ := hkeeps'.delivered other hother hout
      exact ⟨item,haitems.subset hitem,hrest⟩
    · obtain ⟨item,hitem,hguid,mail,hmail,hrest⟩ := hkeeps.delivered auction hauction hopen
      exact ⟨item,hitem,hguid,mail,hmails'.subset hmail,hrest⟩

/-- A restart moves no item. -/
theorem keeps_restart (h : Accounted s) : Keeps s buyer (restart s) := by
  have hmap : ∀ {β : Type} (f : AuctionEntry → β),
      (∀ auction,f (loadFromDB (saveToDB auction))=f auction) →
      (restart s).auctions.map f=s.auctions.map f := by
    intro β f hf
    unfold restart
    rw [List.map_map]
    exact List.map_congr_left fun auction _ => hf auction
  have hkeys := hmap mapKey fun _ => rfl
  have hguids : auctioned (restart s)=auctioned s := hmap AuctionEntry.itemGUIDLow fun _ => rfl
  refine ⟨⟨hkeys ▸ h.keys,fun auction hauction => ?_,hguids ▸ h.registry,h.apart,h.used⟩,
    fun _ => id,fun auction hauction hout => ?_⟩
  · obtain ⟨old,hold,rfl⟩ := List.mem_map.mp hauction
    exact h.fresh old hold
  · rw [hkeys] at hout
    exact absurd (List.mem_map_of_mem hauction) hout

end Steps

end Projectnelth.AuctionHouseItems
