import Mathlib
import Projectnelth.AuctionHouseItems

/-!
# Sales of the auction houses

A sale either changes nothing or takes the listed counts from the stacks of the
seller and registers one item with their sum for one new auction. Along every run
the item then is in one place, wherever an auction with a bid ends only while its
winner is online or trades are logged.
-/

namespace Projectnelth.AuctionHouseSale

open KeyedList PlayerMoney AuctionHouseModel AuctionHouseMoney AuctionHouseItems RunInvariant

/-- The stacks of a sale are the seller's, and each has the count that is listed. -/
def Stacks (s : AuctionHouse) (player : UInt32) (items : List (Item×UInt32)) : Prop :=
  ∀ listed∈items,getItemByGuid s player listed.1.guid=some listed.1 ∧ listed.2 ≤ listed.1.count

/-- What is left of a stack. -/
def leftOver (listed : Item×UInt32) : Option Item :=
  if listed.1.count=listed.2 then none
  else some { listed.1 with count := listed.1.count-listed.2 }

/-- A sale: one new auction of one new item with the listed counts, which the stacks
of the seller have no more. -/
structure Sold (s : AuctionHouse) (player : UInt32) (itemGUIDs : List (ℕ×UInt32))
    (items : List (Item×UInt32)) (item : Item) (auction : AuctionEntry) (s' : AuctionHouse) :
    Prop where
  /-- The stacks are the listed ones. -/
  listed : items.map (fun listed => (listed.1.guid,listed.2))=itemGUIDs
  /-- The seller has had them. -/
  offered : Stacks s player items
  /-- Each stack is listed once. -/
  distinct : (itemGUIDs.map Prod.fst).Nodup
  entry : item.entry≠0 → ∀ listed∈items,listed.1.entry=item.entry
  count : item.count.toNat=(itemGUIDs.map fun listed => listed.2.toNat).sum
  aitems : s'.aitems=s.aitems++[item]
  /-- The auction is open. -/
  auctions : s'.auctions=s.auctions++[auction]
  sells : auction.itemGUIDLow=item.guid ∧ auction.owner=player ∧ auction.bidder=0
  taken : ∀ listed∈items,getItemByGuid s' player listed.1.guid=leftOver listed
  /-- Nothing else is taken. -/
  others : ∀ holder guid,¬(holder=player ∧ guid∈itemGUIDs.map Prod.fst) →
    getItemByGuid s' holder guid=getItemByGuid s holder guid
  mails : s'.mails=s.mails

section Collecting
variable {w : World} {s : AuctionHouse} {player : UInt32} {itemGUIDs : List (ℕ×UInt32)}
  {items : List (Item×UInt32)} {itemEntry : UInt32}

theorem guid_of_getItemByGuid {guid : ℕ} {item : Item}
    (h : getItemByGuid s player guid=some item) :
    lookup itemKey (player,guid) s.inventory=some (player,item) ∧ item.guid=guid := by
  obtain ⟨⟨holder,item'⟩,hlookup,rfl⟩ := Option.map_eq_some_iff.mp h
  have hkey := key_of_lookup hlookup
  obtain ⟨rfl,hguid⟩ := Prod.mk.inj hkey
  exact ⟨hlookup,hguid⟩

/-- The loop over the packet finds the stacks that are listed. -/
theorem collectItems_eq_some (h : collectItems w s player itemEntry itemGUIDs=some items) :
    items.map (fun listed => (listed.1.guid,listed.2))=itemGUIDs ∧ Stacks s player items ∧
      (itemEntry≠0 → ∀ listed∈items,listed.1.entry=itemEntry) ∧
      ∀ first∈items.head?,itemEntry=0 → first.1.entry≠0 →
        ∀ listed∈items,listed.1.entry=first.1.entry := by
  induction itemGUIDs generalizing itemEntry items with
  | nil =>
    obtain rfl : []=items := Option.some.inj h
    exact ⟨rfl,fun _ => fun hmem => absurd hmem (List.not_mem_nil),
      fun _ _ hmem => absurd hmem (List.not_mem_nil),fun _ hfirst => by
        simp only [List.head?_nil,Option.mem_def,reduceCtorEq] at hfirst⟩
  | cons pair itemGUIDs ih =>
    obtain ⟨guid,count⟩ := pair
    unfold collectItems at h
    split at h
    · cases h
    rename_i item hitem
    dsimp only at h
    generalize hentry : (if itemEntry=0 then item.entry else itemEntry)=itemEntry' at h
    split at h
    · cases h
    rename_i hchecks
    simp only [not_or,not_not] at hchecks
    obtain ⟨-,-,-,-,-,hcount,rfl⟩ := hchecks
    obtain ⟨rest,hrest,rfl⟩ := Option.map_eq_some_iff.mp h
    obtain ⟨hmap,hstacks,hsame,hfirst⟩ := ih hrest
    obtain ⟨-,rfl⟩ := guid_of_getItemByGuid hitem
    have hentries : itemEntry≠0 ∨ item.entry≠0 → ∀ listed∈(item,count)::rest,
        listed.1.entry=item.entry := by
      intro hne listed hmem
      rcases List.mem_cons.mp hmem with rfl | hmem
      · rfl
      refine hsame ?_ listed hmem
      rcases hne with hne | hne
      · rw [if_neg hne] at hentry
        exact hentry ▸ hne
      · exact hne
    refine ⟨by rw [List.map_cons,hmap],?_,fun hne listed hmem => ?_,?_⟩
    · intro listed hmem
      rcases List.mem_cons.mp hmem with rfl | hmem
      · exact ⟨hitem,UInt32.not_lt.mp hcount⟩
      · exact hstacks listed hmem
    · rw [hentries (Or.inl hne) listed hmem]
      rw [if_neg hne] at hentry
      exact hentry.symm
    · intro first hhead _ hne
      obtain rfl : (item,count)=first := Option.some.inj hhead
      exact hentries (Or.inr hne)

/-- The counts of a packet add up without overflow. -/
theorem toNat_finalCount (hpacket : itemGUIDs.length ≤ MAX_AUCTION_ITEMS)
    (hcounts : ∀ listed∈itemGUIDs,listed.2 ≤ 1000) :
    (finalCount itemGUIDs).toNat=(itemGUIDs.map fun listed => listed.2.toNat).sum := by
  have hbound : (finalCount itemGUIDs).toNat=(itemGUIDs.map fun listed => listed.2.toNat).sum ∧
      (finalCount itemGUIDs).toNat ≤ 1000*itemGUIDs.length := by
    induction itemGUIDs with
    | nil => exact ⟨rfl,Nat.le_refl _⟩
    | cons listed itemGUIDs ih =>
      rw [List.length_cons] at hpacket ⊢
      obtain ⟨hsum,hle⟩ := ih (by omega) fun other hother =>
        hcounts other (List.mem_cons_of_mem _ hother)
      have hcount : listed.2.toNat ≤ 1000 :=
        UInt32.le_iff_toNat_le.mp (hcounts listed List.mem_cons_self)
      have hadd : (finalCount (listed::itemGUIDs)).toNat=
          listed.2.toNat+(finalCount itemGUIDs).toNat := by
        change (listed.2+finalCount itemGUIDs).toNat=_
        rw [UInt32.toNat_add]
        refine Nat.mod_eq_of_lt ?_
        unfold MAX_AUCTION_ITEMS at hpacket
        omega
      rw [List.map_cons,List.sum_cons,hadd]
      omega
  exact hbound.1

end Collecting

section Taking
variable {s : AuctionHouse} {player : UInt32} {items : List (Item×UInt32)}

/-- What the loop over the stacks leaves alone. -/
theorem frame_takeCounts (s : AuctionHouse) (player : UInt32) (items : List (Item×UInt32)) :
    (takeCounts player s items).money=s.money ∧ (takeCounts player s items).aitems=s.aitems ∧
    (takeCounts player s items).auctions=s.auctions ∧ (takeCounts player s items).mails=s.mails ∧
    (takeCounts player s items).auctionId=s.auctionId ∧
    (takeCounts player s items).hiItemGuid=s.hiItemGuid := by
  induction items generalizing s with
  | nil => exact ⟨rfl,rfl,rfl,rfl,rfl,rfl⟩
  | cons listed items ih =>
    obtain ⟨item,count⟩ := listed
    rw [takeCounts]
    split
    · exact ih _
    · exact ih _

/-- The loop over the stacks takes the listed counts and no others. -/
theorem takeCounts_takes (player : UInt32) (hkeys : (s.inventory.map itemKey).Nodup)
    (hdistinct : (items.map fun listed => listed.1.guid).Nodup)
    (hfound : ∀ listed∈items,
      lookup itemKey (player,listed.1.guid) s.inventory=some (player,listed.1)) :
    (∀ listed∈items,
      getItemByGuid (takeCounts player s items) player listed.1.guid=leftOver listed) ∧
    (∀ holder guid,¬(holder=player ∧ guid∈items.map fun listed => listed.1.guid) →
      getItemByGuid (takeCounts player s items) holder guid=getItemByGuid s holder guid) ∧
    (owned (takeCounts player s items)++(takeCounts player s items).freeItemGuid).Perm
      (owned s++s.freeItemGuid) := by
  induction items generalizing s with
  | nil => exact ⟨fun _ hmem => absurd hmem List.not_mem_nil,fun _ _ _ => rfl,.refl _⟩
  | cons listed items ih =>
    obtain ⟨item,count⟩ := listed
    rw [List.map_cons,List.nodup_cons] at hdistinct
    have hitem := hfound _ List.mem_cons_self
    -- the state after the first stack, of which the others are still there
    have hafter : ∃ s',takeCounts player s ((item,count)::items)=takeCounts player s' items ∧
        (s'.inventory.map itemKey).Nodup ∧
        (∀ holder guid,getItemByGuid s' holder guid=
          if (holder,guid)=(player,item.guid) then leftOver (item,count)
          else getItemByGuid s holder guid) ∧
        (∀ holder guid,(holder,guid)≠(player,item.guid) →
          lookup itemKey (holder,guid) s'.inventory=lookup itemKey (holder,guid) s.inventory) ∧
        (owned s'++s'.freeItemGuid).Perm (owned s++s.freeItemGuid) := by
      unfold leftOver
      rw [takeCounts]
      split
      · rename_i hcount
        refine ⟨_,rfl,nodup_remove hkeys _,fun holder guid => ?_,fun holder guid hne => ?_,?_⟩
        · unfold getItemByGuid
          rw [lookup_remove]
          split
          · rfl
          · rfl
        · rw [lookup_remove,if_neg hne]
        have hperm := (perm_cons_remove hkeys hitem).map fun held => held.2.guid
        refine List.perm_iff_count.mpr fun guid => ?_
        have hcount := hperm.count_eq guid
        unfold owned
        simp only [List.map_cons,List.count_append,List.count_cons,List.count_nil] at hcount ⊢
        omega
      · rename_i hcount
        have hkey : ∀ count : UInt32,
            itemKey (player,{ item with count := item.count-count })=(player,item.guid) := fun _ => rfl
        refine ⟨_,rfl,?_,fun holder guid => ?_,fun holder guid hne => ?_,?_⟩
        · rw [map_key_replace]
          exact hkeys
        · unfold getItemByGuid
          rw [lookup_replace,hkey]
          by_cases heq : (holder,guid)=(player,item.guid)
          · rw [if_pos heq,if_pos heq.symm,heq,hitem]
            rfl
          · rw [if_neg heq,if_neg (Ne.symm heq)]
        · rw [lookup_replace,hkey,if_neg (Ne.symm hne)]
        have hsame := map_replace
          (b := ((player,{ item with count := item.count-count }) : UInt32×Item))
          (fun held => held.2.guid) hkeys hitem rfl
        unfold owned
        rw [hsame]
    obtain ⟨s',htake,hkeys',hget,hlookup,hperm⟩ := hafter
    have hne : ∀ other∈items,(player,other.1.guid)≠(player,item.guid) := by
      intro other hother heq
      exact hdistinct.1 ((Prod.mk.inj heq).2 ▸
        List.mem_map_of_mem (f := fun listed : Item×UInt32 => listed.1.guid) hother)
    obtain ⟨htaken,hothers,hperm'⟩ := ih hkeys' hdistinct.2 fun other hother =>
      (hlookup _ _ (hne other hother)).trans (hfound other (List.mem_cons_of_mem _ hother))
    rw [htake]
    refine ⟨fun listed hmem => ?_,fun holder guid hout => ?_,hperm'.trans hperm⟩
    · rcases List.mem_cons.mp hmem with rfl | hmem
      · rw [hothers _ _ fun h => hdistinct.1 h.2,hget,if_pos rfl]
      · exact htaken listed hmem
    · rw [List.map_cons,List.mem_cons] at hout
      rw [hothers _ _ fun h => hout ⟨h.1,Or.inr h.2⟩,hget,if_neg]
      intro heq
      obtain ⟨hholder,hguid⟩ := Prod.mk.inj heq
      exact hout ⟨hholder,Or.inl hguid⟩

end Taking

section Selling
variable {w : World} {s s' : AuctionHouse} {player : UInt32} {house : Option House}
  {itemGUIDs : List (ℕ×UInt32)} {bid buyout : UInt64} {etime deposit : UInt32}
  {items : List (Item×UInt32)} {auction : AuctionEntry} {item : Item} {buyer : AuctionEntry → UInt32}

/-- What a new guid leaves alone. -/
theorem frame_generateLowGuid (s : AuctionHouse) :
    (generateLowGuid s).1.inventory=s.inventory ∧ (generateLowGuid s).1.aitems=s.aitems ∧
    (generateLowGuid s).1.auctions=s.auctions ∧ (generateLowGuid s).1.mails=s.mails ∧
    (generateLowGuid s).1.auctionId=s.auctionId := by
  unfold generateLowGuid
  split
  · exact ⟨rfl,rfl,rfl,rfl,rfl⟩
  · exact ⟨rfl,rfl,rfl,rfl,rfl⟩

/-- A new guid is nowhere yet. -/
theorem generateLowGuid_fresh (hapart : (guids s).Nodup) (hused : ∀ guid∈guids s,guid < s.hiItemGuid) :
    ((generateLowGuid s).2::(owned s++(registered s++mailed s)++
      (generateLowGuid s).1.freeItemGuid)).Nodup ∧
    ∀ guid∈(generateLowGuid s).2::(owned s++(registered s++mailed s)++
      (generateLowGuid s).1.freeItemGuid),guid < (generateLowGuid s).1.hiItemGuid := by
  unfold generateLowGuid
  unfold guids at hapart hused
  split
  · rename_i guid rest hfree
    rw [hfree] at hapart hused
    have hperm : (owned s++(registered s++mailed s)++guid::rest).Perm
        (guid::(owned s++(registered s++mailed s)++rest)) := List.perm_middle
    exact ⟨hperm.nodup_iff.mp hapart,fun other hother => hused other (hperm.mem_iff.mpr hother)⟩
  · rename_i hfree
    rw [hfree] at hapart hused
    refine ⟨List.nodup_cons.mpr ⟨fun hmem => ?_,hfree ▸ hapart⟩,fun other hother => ?_⟩
    · exact absurd (hused _ (hfree ▸ hmem)) (Nat.lt_irrefl _)
    · rcases List.mem_cons.mp hother with rfl | hother
      · exact Nat.lt_succ_self _
      · exact (hused other (hfree ▸ hother)).trans (Nat.lt_succ_self _)

theorem keeps_open (h : Accounted s) (haitems : s'.aitems=s.aitems++[item])
    (hauctions : s'.auctions=s.auctions++[auction]) (hmails : s'.mails=s.mails)
    (hid : auction.Id=s.auctionId) (hnext : s'.auctionId=s.auctionId+1)
    (hguid : auction.itemGUIDLow=item.guid) (hapart : (guids s').Nodup)
    (hused : ∀ guid∈guids s',guid < s'.hiItemGuid) : Keeps s buyer s' := by
  have hkeys : s'.auctions.map mapKey=s.auctions.map mapKey++[mapKey auction] := by
    rw [hauctions,List.map_append]
    rfl
  have hregistered : registered s'=registered s++[item.guid] := by
    unfold registered
    rw [haitems,List.map_append]
    rfl
  have hauctioned : auctioned s'=auctioned s++[item.guid] := by
    unfold auctioned
    rw [hauctions,List.map_append,List.map_singleton,hguid]
  have hmailed : mailed s'=mailed s := by
    unfold mailed
    rw [hmails]
  refine ⟨⟨?_,fun other hother => ?_,?_,hapart,hused⟩,fun guid hmem => ?_,
    fun other hother hout => ?_⟩
  · rw [hkeys]
    refine List.Nodup.append h.keys (List.nodup_singleton _) ?_
    rw [List.disjoint_singleton]
    intro hmem
    obtain ⟨other,hother,hkey⟩ := List.mem_map.mp hmem
    exact absurd ((Prod.mk.inj hkey).2.trans hid) (h.fresh other hother).ne
  · rw [hauctions] at hother
    rw [hnext]
    rcases List.mem_append.mp hother with hother | hother
    · exact (h.fresh other hother).trans (Nat.lt_succ_self _)
    · rw [List.mem_singleton.mp hother,hid]
      exact Nat.lt_succ_self _
  · rw [hauctioned,hregistered]
    exact h.registry.append_right _
  · rw [hregistered,hmailed]
    rcases List.mem_append.mp hmem with hmem | hmem
    · exact List.mem_append_left _ (List.mem_append_left _ hmem)
    · exact List.mem_append_right _ hmem
  · rw [hkeys] at hout
    exact absurd (List.mem_append_left _ (List.mem_map_of_mem hother)) hout

/-- What has been checked when a sale begins. -/
theorem sellItems_eq_some (h : sellItems w s player itemGUIDs=some items) :
    items.map (fun listed => (listed.1.guid,listed.2))=itemGUIDs ∧ Stacks s player items ∧
    (itemGUIDs.map Prod.fst).Nodup ∧ finalCount itemGUIDs≠0 ∧
    (∀ first∈items.head?,first.1.entry≠0 → ∀ listed∈items,listed.1.entry=first.1.entry) ∧
    ∀ listed∈items,finalCount itemGUIDs ≤ w.maxStackSize listed.1.entry := by
  unfold sellItems at h
  split at h
  · cases h
  rename_i collected hcollect
  obtain ⟨hmap,hstacks,-,hentries⟩ := collectItems_eq_some hcollect
  split at h
  · cases h
  rename_i hcount
  split at h
  · cases h
  rename_i hdistinct
  split at h
  · cases h
  rename_i hmax
  obtain rfl := Option.some.inj h
  refine ⟨hmap,hstacks,not_not.mp hdistinct,hcount,
    fun first hfirst => hentries first hfirst rfl,fun listed hlisted => ?_⟩
  rw [List.any_eq_true] at hmax
  exact UInt32.not_lt.mp fun hlt => hmax ⟨listed,hlisted,decide_eq_true hlt⟩

theorem nodup_itemKey (h : Accounted s) : (s.inventory.map itemKey).Nodup := by
  have howned : (owned s).Nodup :=
    (List.nodup_append.mp (List.nodup_append.mp h.apart).1).1
  refine List.Nodup.of_map Prod.snd ?_
  rw [List.map_map]
  exact howned

theorem sold_whole (h : Accounted s) (hget : getItemByGuid s player item.guid=some item)
    (hinventory : s'.inventory=remove itemKey (player,item.guid) s.inventory)
    (haitems : s'.aitems=s.aitems++[item]) (hauctions : s'.auctions=s.auctions++[auction])
    (hmails : s'.mails=s.mails) (hid : auction.Id=s.auctionId)
    (hnext : s'.auctionId=s.auctionId+1) (hfree : s'.freeItemGuid=s.freeItemGuid)
    (hhi : s'.hiItemGuid=s.hiItemGuid)
    (hsells : auction.itemGUIDLow=item.guid ∧ auction.owner=player ∧ auction.bidder=0) :
    Sold s player [(item.guid,item.count)] [(item,item.count)] item auction s' ∧
      Keeps s buyer s' := by
  have hlookup := (guid_of_getItemByGuid hget).1
  have htake : ∀ holder guid,getItemByGuid s' holder guid=
      if (holder,guid)=(player,item.guid) then none else getItemByGuid s holder guid := by
    intro holder guid
    unfold getItemByGuid
    rw [hinventory,lookup_remove]
    split
    · rfl
    · rfl
  have hperm : (guids s').Perm (guids s) := by
    have hstack := (perm_cons_remove (nodup_itemKey h) hlookup).map fun held => held.2.guid
    refine List.perm_iff_count.mpr fun guid => ?_
    have hcount := hstack.count_eq guid
    unfold guids owned registered mailed
    rw [hinventory,haitems,hmails,hfree]
    simp only [List.map_append,List.map_cons,List.map_nil,List.count_append,List.count_cons,
      List.count_nil] at hcount ⊢
    omega
  refine ⟨⟨rfl,?_,List.nodup_singleton _,fun _ => ?_,rfl,haitems,hauctions,hsells,?_,?_,hmails⟩,
    keeps_open h haitems hauctions hmails hid hnext hsells.1 (hperm.nodup_iff.mpr h.apart)
      fun guid hmem => (h.used guid (hperm.subset hmem)).trans_eq hhi.symm⟩
  · intro listed hlisted
    rw [List.mem_singleton.mp hlisted]
    exact ⟨hget,UInt32.le_refl _⟩
  · intro listed hlisted
    rw [List.mem_singleton.mp hlisted]
  · intro listed hlisted
    rw [List.mem_singleton.mp hlisted,htake,if_pos rfl]
    exact (if_pos rfl).symm
  · intro holder guid hout
    rw [htake,if_neg]
    intro heq
    obtain ⟨hholder,hguid⟩ := Prod.mk.inj heq
    exact hout ⟨hholder,List.mem_singleton.mpr hguid⟩

/-- The counts of several stacks go into the auction of a new item. -/
theorem sold_clone {s₁ : AuctionHouse} (h : Accounted s)
    (hmap : items.map (fun listed => (listed.1.guid,listed.2))=itemGUIDs)
    (hstacks : Stacks s player items) (hdistinct : (itemGUIDs.map Prod.fst).Nodup)
    (hentry : item.entry≠0 → ∀ listed∈items,listed.1.entry=item.entry)
    (hcount : item.count.toNat=(itemGUIDs.map fun listed => listed.2.toNat).sum)
    (hinventory : s₁.inventory=s.inventory)
    (haitems : s₁.aitems=s.aitems++[item]) (hauctions : s₁.auctions=s.auctions++[auction])
    (hmails : s₁.mails=s.mails) (hid : auction.Id=s.auctionId)
    (hnext : s₁.auctionId=s.auctionId+1)
    (hfresh : (item.guid::(owned s++(registered s++mailed s)++s₁.freeItemGuid)).Nodup)
    (hused : ∀ guid∈item.guid::(owned s++(registered s++mailed s)++s₁.freeItemGuid),
      guid < s₁.hiItemGuid)
    (hsells : auction.itemGUIDLow=item.guid ∧ auction.owner=player ∧ auction.bidder=0) :
    Sold s player itemGUIDs items item auction (takeCounts player s₁ items) ∧
      Keeps s buyer (takeCounts player s₁ items) := by
  have hguids : itemGUIDs.map Prod.fst=items.map fun listed => listed.1.guid := by
    rw [← hmap,List.map_map]
    rfl
  have hsame : ∀ holder guid,getItemByGuid s₁ holder guid=getItemByGuid s holder guid := by
    intro holder guid
    unfold getItemByGuid
    rw [hinventory]
  obtain ⟨htaken,hothers,hperm⟩ := takeCounts_takes player
    (hinventory ▸ nodup_itemKey h) (hguids ▸ hdistinct) fun listed hlisted =>
      hinventory.symm ▸ (guid_of_getItemByGuid (hstacks listed hlisted).1).1
  obtain ⟨-,haitems',hauctions',hmails',hnext',hhi'⟩ :=
    frame_takeCounts s₁ player items
  have hall : (guids (takeCounts player s₁ items)).Perm
      (item.guid::(owned s++(registered s++mailed s)++s₁.freeItemGuid)) := by
    refine List.perm_iff_count.mpr fun guid => ?_
    have hcount := hperm.count_eq guid
    have howned : owned s₁=owned s := by
      unfold owned
      rw [hinventory]
    have hregistered : registered (takeCounts player s₁ items)=registered s++[item.guid] := by
      unfold registered
      rw [haitems',haitems,List.map_append]
      rfl
    have hmailed : mailed (takeCounts player s₁ items)=mailed s := by
      unfold mailed
      rw [hmails',hmails]
    unfold guids
    rw [hregistered,hmailed]
    rw [howned] at hcount
    simp only [List.count_append,List.count_cons,List.count_nil] at hcount ⊢
    omega
  refine ⟨⟨hmap,hstacks,hdistinct,hentry,hcount,haitems'.trans haitems,hauctions'.trans hauctions,
    hsells,htaken,fun holder guid hout => ?_,hmails'.trans hmails⟩,
    keeps_open h (haitems'.trans haitems) (hauctions'.trans hauctions) (hmails'.trans hmails) hid
      (hnext'.trans hnext) hsells.1 (hall.nodup_iff.mpr hfresh) fun guid hmem =>
        (hused guid (hall.subset hmem)).trans_eq hhi'.symm⟩
  rw [hguids] at hout
  exact (hothers holder guid hout).trans (hsame holder guid)

/-- A sale is refused and changes nothing, or takes what is listed. -/
theorem sellItem_sells (h : Accounted s) (w : World) (player : UInt32) (house : Option House)
    (itemGUIDs : List (ℕ×UInt32)) (bid buyout : UInt64) (etime deposit : UInt32)
    (buyer : AuctionEntry → UInt32) :
    ((handleAuctionSellItem w s player house itemGUIDs bid buyout etime deposit).2=false →
      (handleAuctionSellItem w s player house itemGUIDs bid buyout etime deposit).1=s) ∧
    ((handleAuctionSellItem w s player house itemGUIDs bid buyout etime deposit).2=true →
      ∃ items item auction,Sold s player itemGUIDs items item auction
        (handleAuctionSellItem w s player house itemGUIDs bid buyout etime deposit).1) ∧
    Keeps s buyer (handleAuctionSellItem w s player house itemGUIDs bid buyout etime deposit).1 := by
  have hrefused : ∀ r : AuctionHouse×Bool,r=(s,false) →
      (r.2=false → r.1=s) ∧
      (r.2=true → ∃ items item auction,Sold s player itemGUIDs items item auction r.1) ∧
      Keeps s buyer r.1 := by
    rintro r rfl
    exact ⟨fun _ => rfl,fun htrue => absurd htrue Bool.false_ne_true,.refl h⟩
  have haccepted : ∀ (s' : AuctionHouse) (items : List (Item×UInt32)) (item : Item)
      (auction : AuctionEntry),
      (Sold s player itemGUIDs items item auction s' ∧ Keeps s buyer s') →
      ∀ r : AuctionHouse×Bool,r=(s',true) → (r.2=false → r.1=s) ∧
      (r.2=true → ∃ items item auction,Sold s player itemGUIDs items item auction r.1) ∧
      Keeps s buyer r.1 := by
    rintro s' items item auction ⟨hsold,hkeeps⟩ r rfl
    exact ⟨fun hfalse => absurd hfalse.symm Bool.false_ne_true,
      fun _ => ⟨items,item,auction,hsold⟩,hkeeps⟩
  have hadd : ∀ (r : AuctionHouse) (auction : AuctionEntry),r.auctions=s.auctions →
      auction.Id=s.auctionId → (addAuction r auction).auctions=s.auctions++[auction] := by
    intro r auction hauctions hid
    unfold addAuction
    dsimp only
    rw [hauctions,remove_of_forall_ne]
    intro other hother hkey
    exact absurd ((Prod.mk.inj hkey).2.trans hid) (h.fresh other hother).ne
  unfold handleAuctionSellItem
  split
  · exact hrefused _ rfl
  rename_i hpacket
  split
  · rename_i house' item count rest hitems
    obtain ⟨hmap,hstacks,hdistinct,hnonzero,hentries,hmax⟩ := sellItems_eq_some hitems
    split
    · exact hrefused _ rfl
    extract_lets paid AH added
    split
    · rename_i hwhole
      obtain ⟨rfl,hcount⟩ := hwhole
      subst hcount
      subst hmap
      refine haccepted _ [(item,item.count)] item AH ?_ _ rfl
      exact sold_whole h (hstacks _ List.mem_cons_self).1 rfl rfl (hadd _ AH rfl rfl) rfl rfl
        rfl rfl rfl ⟨rfl,rfl,rfl⟩
    · obtain ⟨hlength,hcounts⟩ : itemGUIDs.length ≤ MAX_AUCTION_ITEMS ∧
          ∀ listed∈itemGUIDs,listed.2 ≤ 1000 := by
        simp only [sellPacket,Bool.not_eq_true',Bool.not_eq_false,Bool.and_eq_true,
          decide_eq_true_eq,List.all_eq_true] at hpacket
        exact ⟨hpacket.1.1.1.1.1.1,fun listed hlisted => (hpacket.1.1.1.1.1.2 listed hlisted).2⟩
      have hclone : cloneItem w paid item (finalCount itemGUIDs)=
          some ((generateLowGuid paid).1,
            { item with guid := (generateLowGuid paid).2, count := finalCount itemGUIDs }) := by
        unfold cloneItem
        dsimp only
        rw [if_neg,if_neg (UInt32.not_lt.mpr (hmax _ List.mem_cons_self))]
        rw [UInt32.lt_one_iff]
        exact hnonzero
      rw [hclone]
      obtain ⟨hfresh,hused⟩ := generateLowGuid_fresh (s := paid) h.apart h.used
      obtain ⟨hinventory,haitems,hauctions,hmails,hnext⟩ := frame_generateLowGuid paid
      refine haccepted _ ((item,count)::rest)
        { item with guid := (generateLowGuid paid).2, count := finalCount itemGUIDs }
        { AH with itemGUIDLow := (generateLowGuid paid).2 } ?_ _ rfl
      refine sold_clone h hmap hstacks hdistinct (hentries _ rfl)
        (toNat_finalCount hlength hcounts) hinventory ?_ (hadd _ _ hauctions rfl) hmails rfl
        hnext hfresh hused ⟨rfl,rfl,rfl⟩
      exact congrArg (·++_) haitems
  · exact hrefused _ rfl

end Selling

/-- Everything has its place, and those who sell and bid are characters. -/
structure Housed (characters : Finset UInt32) (s : AuctionHouse) : Prop where
  /-- Everything has its place. -/
  accounted : Accounted s
  owner : ∀ auction∈s.auctions,auction.owner∈characters
  bidder : ∀ auction∈s.auctions,auction.bidder≠0 → auction.bidder∈characters

/-- The characters exist, and those who act are online. -/
def Existing (characters : Finset UInt32) (step : World×AuctionOp) : Prop :=
  (∀ player∈characters,receiverExists step.1 player=true) ∧
  match step.2 with
  | .sellItem player _ _ _ _ _ _ => player∈characters
  | .placeBid player _ _ _ => player∈characters ∧ step.1.online player=true
  | .removeItem player _ _ => player∈characters
  | .update _ _ => True
  | .restart => True

/-- The auctions that end have no bid, or a winner who is online, or trades are logged. -/
def WinnersReached (s : AuctionHouse) (step : World×AuctionOp) : Prop :=
  match step.2 with
  | .update house expired => ∀ auction∈s.auctions,auction.house=house → auction.Id∈expired →
      auction.bidder=0 ∨ step.1.online auction.bidder=true ∨ step.1.logTrade=true
  | _ => True

/-- Who gets the item of an auction with a bid. -/
def buyerOf (op : AuctionOp) (auction : AuctionEntry) : UInt32 :=
  match op with
  | .placeBid player _ _ _ => player
  | _ => auction.bidder

/-- A step loses no item, and a sale is refused and changes nothing or takes what is listed. -/
def Conserves (s : AuctionHouse) (step : World×AuctionOp) (s' : AuctionHouse) : Prop :=
  Keeps s (buyerOf step.2) s' ∧
  match step.2 with
  | .sellItem player house itemGUIDs bid buyout etime deposit =>
    if (handleAuctionSellItem step.1 s player house itemGUIDs bid buyout etime deposit).2 then
      ∃ items item auction,Sold s player itemGUIDs items item auction s'
    else s'=s
  | _ => True

section Runs
variable {characters : Finset UInt32} {s : AuctionHouse}

theorem Housed.sublist {s' : AuctionHouse} (h : Housed characters s) (haccounted : Accounted s')
    (hsub : s'.auctions.Sublist s.auctions) : Housed characters s' where
  accounted := haccounted
  owner auction hauction := h.owner auction (hsub.subset hauction)
  bidder auction hauction := h.bidder auction (hsub.subset hauction)

/-- Every step conserves the items and keeps the auctions those of characters. -/
theorem Housed.step {step : World×AuctionOp} (h : Housed characters s) (hexisting : Existing characters step)
    (hreached : WinnersReached s step) :
    Housed characters (apply step.1 s step.2) ∧ Conserves s step (apply step.1 s step.2) := by
  obtain ⟨w,op⟩ := step
  obtain ⟨hexists,hop⟩ := hexisting
  cases op with
  | sellItem player house itemGUIDs bid buyout etime deposit =>
    obtain ⟨hrefused,haccepted,hkeeps⟩ := sellItem_sells h.accounted w player house itemGUIDs bid
      buyout etime deposit AuctionEntry.bidder
    have hmem := sellItem_frame w s player house itemGUIDs bid buyout etime deposit
    change (_ → _=s) at hrefused
    unfold Conserves apply
    dsimp only
    generalize handleAuctionSellItem w s player house itemGUIDs bid buyout etime deposit=r at *
    refine ⟨⟨hkeeps.accounted,fun auction hauction => ?_,fun auction hauction hbid => ?_⟩,hkeeps,?_⟩
    · rcases hmem with ⟨hauctions,-⟩ | ⟨-,AH,-,howner,-,hauctions⟩
      · exact h.owner auction (hauctions ▸ hauction)
      rw [hauctions] at hauction
      rcases List.mem_append.mp hauction with hold | hnew
      · exact h.owner auction (mem_remove.mp hold).1
      · rw [List.mem_singleton.mp hnew,howner]
        exact hop
    · rcases hmem with ⟨hauctions,-⟩ | ⟨-,AH,-,-,hbidder,hauctions⟩
      · exact h.bidder auction (hauctions ▸ hauction) hbid
      rw [hauctions] at hauction
      rcases List.mem_append.mp hauction with hold | hnew
      · exact h.bidder auction (mem_remove.mp hold).1 hbid
      · rw [List.mem_singleton.mp hnew] at hbid
        exact absurd hbidder hbid
    · split
      · rename_i htrue
        exact haccepted htrue
      · rename_i hfalse
        exact hrefused (Bool.eq_false_iff.mpr hfalse)
  | placeBid player house auctionId price =>
    change Housed characters (handleAuctionPlaceBid w s player house auctionId price) ∧
      Keeps s _ (handleAuctionPlaceBid w s player house auctionId price) ∧ True
    unfold handleAuctionPlaceBid
    split
    · exact ⟨h,.refl h.accounted,trivial⟩
    split
    · exact ⟨h,.refl h.accounted,trivial⟩
    rename_i auction hfound
    obtain ⟨house',-,hauction⟩ := Option.bind_eq_some_iff.mp hfound
    have hget : lookup mapKey (mapKey auction) s.auctions=some auction := by
      rw [key_of_lookup hauction]
      exact hauction
    split
    · exact ⟨h,.refl h.accounted,trivial⟩
    split
    · have hkeeps : Keeps s (fun _ => player) (placeBid w s player auction price) :=
        keeps_placeBid h.accounted hget
      have hmem : ∀ changed∈(placeBid w s player auction price).auctions,
          changed={ auction with bidder := player, bid := price } ∨ changed∈s.auctions := by
        intro changed hchanged
        rw [(placeBid_frame w s player auction price).1] at hchanged
        exact mem_of_mem_replace hchanged
      refine ⟨⟨hkeeps.accounted,fun changed hchanged => ?_,fun changed hchanged hbid => ?_⟩,
        hkeeps,trivial⟩
      · rcases hmem changed hchanged with rfl | hchanged
        · exact h.owner auction (mem_of_lookup hget)
        · exact h.owner changed hchanged
      · rcases hmem changed hchanged with rfl | hchanged
        · exact hop.1
        · exact h.bidder changed hchanged hbid
    · have hkeeps := keeps_buyOut h.accounted hget hop.2
      refine ⟨h.sublist hkeeps.accounted ?_,hkeeps,trivial⟩
      rw [(buyOut_frame w s player auction).1]
      exact List.filter_sublist
  | removeItem player house auctionId =>
    have hkeeps : Keeps s AuctionEntry.bidder (handleAuctionRemoveItem w s player house auctionId) :=
      keeps_removeItem h.accounted
    exact ⟨h.sublist hkeeps.accounted (removeItem_frame w s player house auctionId).1,hkeeps,trivial⟩
  | update house expired =>
    have hwinner : ∀ auction∈s.auctions,auction.house=house → auction.Id∈expired →
        WinnerReached w auction := by
      intro auction hauction hhouse hid
      by_cases hnone : auction.bidder=0
      · exact Or.inl hnone
      have hexist := hexists _ (h.bidder auction hauction hnone)
      unfold receiverExists at hexist
      rw [Bool.or_eq_true,bne_iff_ne] at hexist
      rcases hreached auction hauction hhouse hid with hzero | honline | hlog
      · exact absurd hzero hnone
      · exact Or.inr (Or.inl honline)
      · exact hexist.elim (fun honline => Or.inr (Or.inl honline)) fun haccount =>
          Or.inr (Or.inr ⟨hlog,haccount⟩)
    obtain ⟨hkeeps,hsub,-⟩ := keeps_update h.accounted
      (fun auction hauction => hexists _ (h.owner auction hauction)) hwinner
    exact ⟨h.sublist hkeeps.accounted hsub,hkeeps,trivial⟩
  | restart =>
    have hkeeps : Keeps s AuctionEntry.bidder (restart s) := keeps_restart h.accounted
    refine ⟨⟨hkeeps.accounted,fun auction hauction => ?_,fun auction hauction hbid => ?_⟩,hkeeps,
      trivial⟩
    · obtain ⟨old,hold,rfl⟩ := List.mem_map.mp hauction
      exact h.owner old hold
    · obtain ⟨old,hold,rfl⟩ := List.mem_map.mp hauction
      exact h.bidder old hold hbid

/-- One step of a run. -/
def stepOn (s : AuctionHouse) (step : World×AuctionOp) : AuctionHouse := apply step.1 s step.2

/-- In every run of existing characters, in which the winners of the auctions that end are
reached, every step conserves the items, and what is in an auction or a mail after it is in
exactly one place from then on. -/
theorem auction_items (characters : Finset UInt32) (s : AuctionHouse)
    (before after : List (World×AuctionOp)) (step : World×AuctionOp) (h : Housed characters s)
    (hexisting : Meets stepOn (fun _ => Existing characters) s (before++step::after))
    (hreached : Meets stepOn WinnersReached s (before++step::after)) :
    Conserves (run stepOn s before) step (stepOn (run stepOn s before) step) ∧
    ∀ guid∈registered (stepOn (run stepOn s before) step)++
        mailed (stepOn (run stepOn s before) step),
      InOnePlace (run stepOn s (before++step::after)) guid := by
  have hrun : ∀ (steps : List (World×AuctionOp)) (s : AuctionHouse),Housed characters s →
      Meets stepOn (fun _ => Existing characters) s steps → Meets stepOn WinnersReached s steps →
      Housed characters (run stepOn s steps) ∧
      ∀ guid∈registered s++mailed s,
        guid∈registered (run stepOn s steps)++mailed (run stepOn s steps) := by
    intro steps
    induction steps with
    | nil => exact fun s h _ _ => ⟨h,fun _ => id⟩
    | cons step steps ih =>
      rintro s h ⟨hexisting,hexistings⟩ ⟨hreached,hreacheds⟩
      obtain ⟨hhoused,hkeeps,-⟩ := h.step hexisting hreached
      obtain ⟨hlast,hkept⟩ := ih (stepOn s step) hhoused hexistings hreacheds
      exact ⟨hlast,fun guid hguid => hkept guid (hkeeps.kept guid hguid)⟩
  obtain ⟨hexisting₁,hexisting₂,hexisting₃⟩ := meets_append.mp hexisting
  obtain ⟨hreached₁,hreached₂,hreached₃⟩ := meets_append.mp hreached
  have hhoused := (hrun before s h hexisting₁ hreached₁).1
  obtain ⟨hafter,hconserves⟩ := hhoused.step hexisting₂ hreached₂
  obtain ⟨hlast,hkept⟩ := hrun after _ hafter hexisting₃ hreached₃
  rw [run_append]
  exact ⟨hconserves,fun guid hguid => hlast.accounted.inOnePlace (hkept guid hguid)⟩

end Runs

/-- Two stacks of one player, before any sale. -/
def twoStacks : AuctionHouse where
  money := fun _ => 5000
  inventory := [(1,⟨7,5,10,true,false,0⟩),(1,⟨8,5,4,true,false,0⟩)]
  aitems := []
  auctions := []
  mails := []
  auctionId := 1
  freeItemGuid := []
  hiItemGuid := 9

/-- A sale of both stacks in part, and a bid on it. -/
def saleAndBid : List (World×AuctionOp) :=
  [(quietWorld,.sellItem 1 (some .neutral) [(7,6),(8,4)] 100 0 720 5),
    (quietWorld,.placeBid 2 (some .neutral) 1 200)]

/-- The characters exist and none of them is online. -/
def awayWorld : World := { quietWorld with online := fun _ => false }

theorem housed_twoStacks : Housed {1,2} twoStacks where
  accounted := ⟨by decide,by decide,by decide,by decide,by decide⟩
  owner := by decide
  bidder := by decide

theorem two_mem : (2 : UInt32)∈({1,2} : Finset UInt32) := by decide

theorem exists_awayWorld : ∀ player∈({1,2} : Finset UInt32),
    receiverExists awayWorld player=true := by
  intro player hplayer
  rcases Finset.mem_insert.mp hplayer with rfl | hplayer
  · decide
  · obtain rfl := Finset.mem_singleton.mp hplayer
    decide

/-- The sold item gets to a winner who is online. -/
theorem auction_items_won :
    InOnePlace (run stepOn twoStacks (saleAndBid++[(quietWorld,.update .neutral [1])])) 9 := by
  have hwon := auction_items {1,2} twoStacks [] [saleAndBid[1],(quietWorld,.update .neutral [1])]
    saleAndBid[0] housed_twoStacks
    ⟨⟨exists_quietWorld,Finset.mem_insert_self _ _⟩,⟨exists_quietWorld,two_mem,rfl⟩,
      ⟨exists_quietWorld,trivial⟩,trivial⟩
    ⟨trivial,trivial,by
      change ∀ auction∈_,_
      decide,trivial⟩
  exact hwon.2 9 (by decide)

/-- The item of a winner who is offline is in no mail where trades are not logged. -/
theorem offline_winner_loses_item :
    ¬∀ (characters : Finset UInt32) (s : AuctionHouse) (before after : List (World×AuctionOp))
      (step : World×AuctionOp),Housed characters s →
      Meets stepOn (fun _ => Existing characters) s (before++step::after) →
      Conserves (run stepOn s before) step (stepOn (run stepOn s before) step) ∧
      ∀ guid∈registered (stepOn (run stepOn s before) step)++
          mailed (stepOn (run stepOn s before) step),
        InOnePlace (run stepOn s (before++step::after)) guid := by
  intro h
  have hlost := (h {1,2} twoStacks [] [saleAndBid[1],(awayWorld,.update .neutral [1])]
    saleAndBid[0] housed_twoStacks
    ⟨⟨exists_quietWorld,Finset.mem_insert_self _ _⟩,⟨exists_quietWorld,two_mem,rfl⟩,
      ⟨exists_awayWorld,trivial⟩,trivial⟩).2 9 (by decide)
  have honce := hlost.once
  revert honce
  decide

end Projectnelth.AuctionHouseSale
