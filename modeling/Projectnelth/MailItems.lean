import Mathlib
import Projectnelth.MailMoney

/-!
# The items of the mail

An item lies in the inventory of one player or in the list of one mail, whose receiver
has it in the table of mailed items. A deleted mail goes, and its items with it, when
the mailbox of its receiver is saved; an item that is taken may be merged into other
stacks. Neither a packet that lists an item twice nor a refused operation changes
anything about that.
-/

namespace Projectnelth.MailItems

open KeyedList PlayerMoney MailModel MailMoney RunInvariant

/-- The guids of the items of the players. -/
def owned (s : Post) : List ℕ := s.inventory.map fun held => held.2.guid

/-- The guids of the items inside mails. -/
def mailed (s : Post) : List ℕ := s.mails.flatMap Mail.items

/-- The guids of all items. -/
def guids (s : Post) : List ℕ := owned s++mailed s

/-- The item lies in one place, and where this is a mail the receiver's table has it. -/
structure InOnePlace (s : Post) (guid : ℕ) : Prop where
  /-- One inventory or one mail, and nothing twice. -/
  once : (owned s).count guid+(mailed s).count guid=1
  held : ∀ m∈s.mails,guid∈m.items → (getMItem s m.receiver guid).isSome=true

/-- Mails of players with ids of their own and items that are nowhere else. -/
structure Placed (characters : Finset UInt32) (s : Post) : Prop where
  ids : (s.mails.map Mail.messageID).Nodup
  /-- The ids are used up. -/
  fresh : ∀ m∈s.mails,m.messageID < s.mailId
  sender : ∀ m∈s.mails,m.sender∈characters
  receiver : ∀ m∈s.mails,m.receiver∈characters
  /-- The mails are those of players. -/
  normal : ∀ m∈s.mails,m.messageType=.normal
  free : ∀ m∈s.mails,m.state=.deleted → m.COD=0
  /-- No item is twice anywhere. -/
  apart : (guids s).Nodup
  held : ∀ m∈s.mails,∀ guid∈m.items,(getMItem s m.receiver guid).isSome=true

section Tables
variable {w : World} {s : Post} {player : UInt32} {guid : ℕ} {draft : MailDraft} {item : Item}

theorem getMItem_addMItem (s : Post) (receiver player : UInt32) (item : Item) (guid : ℕ) :
    getMItem (addMItem s receiver item) player guid=
      if player=receiver ∧ guid=item.guid then some item else getMItem s player guid := by
  unfold getMItem addMItem insertItem
  dsimp only
  by_cases hplayer : player=receiver
  · subst hplayer
    rw [Function.update_self,lookup_put]
    simp only [true_and]
  · rw [Function.update_of_ne hplayer,if_neg fun h => hplayer h.1]

theorem getMItem_removeMItem (s : Post) (receiver player : UInt32) (gone guid : ℕ) :
    getMItem (removeMItem s receiver gone) player guid=
      if player=receiver ∧ guid=gone then none else getMItem s player guid := by
  unfold getMItem removeMItem
  dsimp only
  by_cases hplayer : player=receiver
  · subst hplayer
    rw [Function.update_self,lookup_remove]
    simp only [true_and]
  · rw [Function.update_of_ne hplayer,if_neg fun h => hplayer h.1]

/-- A mail that is sent brings its items into the table of its receiver and takes none out. -/
theorem held_sendMailTo (w : World) (s : Post) (draft : MailDraft) (receiver sender : UInt32)
    (delay : ℕ) :
    (∀ item∈draft.items,(getMItem (draft.sendMailTo w s receiver sender delay) receiver
      item.guid).isSome=true) ∧
    ∀ player guid,(getMItem s player guid).isSome=true →
      (getMItem (draft.sendMailTo w s receiver sender delay) player guid).isSome=true := by
  unfold MailDraft.sendMailTo
  dsimp only
  have hfold : ∀ (items : List Item) (r : Post),
      (∀ item∈items,(getMItem (items.foldl (fun s item => addMItem s receiver item) r) receiver
        item.guid).isSome=true) ∧
      ∀ player guid,(getMItem r player guid).isSome=true →
        (getMItem (items.foldl (fun s item => addMItem s receiver item) r) player
          guid).isSome=true := by
    intro items
    induction items with
    | nil => exact fun r => ⟨fun _ h => absurd h List.not_mem_nil,fun _ _ => id⟩
    | cons item items ih =>
      intro r
      obtain ⟨hin,hkeep⟩ := ih (addMItem r receiver item)
      refine ⟨fun other hother => ?_,fun player guid hheld => hkeep player guid ?_⟩
      · rcases List.mem_cons.mp hother with rfl | hother
        · refine hkeep receiver other.guid ?_
          rw [getMItem_addMItem,if_pos ⟨rfl,rfl⟩]
          rfl
        · exact hin other hother
      · rw [getMItem_addMItem]
        split
        · rfl
        · exact hheld
  exact hfold _ _

/-- The items of a packet leave the inventory for the draft, each one once. -/
theorem fillDraft_moves (s : Post) (player : UInt32) (draft : MailDraft) (items : List Item)
    (hkeys : (s.inventory.map itemKey).Nodup)
    (hapart : ∀ guid,(owned s).count guid+(draft.items.map Item.guid).count guid ≤ 1)
    (hfound : ∀ item∈items,lookup itemKey (player,item.guid) s.inventory=some (player,item) ∨
      lookup itemKey (player,item.guid) s.inventory=none ∧
        item.guid∈draft.items.map Item.guid) :
    ∀ guid,(owned (fillDraft player s draft items).1).count guid+
      ((fillDraft player s draft items).2.items.map Item.guid).count guid=
        (owned s).count guid+(draft.items.map Item.guid).count guid := by
  induction items generalizing s draft with
  | nil => exact fun _ => rfl
  | cons item items ih =>
    rw [fillDraft]
    have hdraft : ∀ guid,((draft.addItem item).items.map Item.guid).count guid=
        if guid=item.guid then 1 else (draft.items.map Item.guid).count guid :=
      fun guid => count_put item guid draft.items
    have hmoved : ∀ guid,(owned (moveItemFromInventory s player item)).count guid+
        ((draft.addItem item).items.map Item.guid).count guid=
          (owned s).count guid+(draft.items.map Item.guid).count guid := by
      intro guid
      rw [hdraft]
      rcases hfound item List.mem_cons_self with hsome | ⟨hnone,hin⟩
      · have hperm := ((perm_cons_remove hkeys hsome).map fun held => held.2.guid).count_eq guid
        have hone := hapart guid
        rw [List.map_cons,List.count_cons] at hperm
        change (owned s).count guid=(owned (moveItemFromInventory s player item)).count guid+_
          at hperm
        split
        · rename_i heq
          rw [if_pos (beq_iff_eq.mpr heq.symm)] at hperm
          omega
        · rename_i hne
          rw [if_neg fun h => hne (beq_iff_eq.mp h).symm] at hperm
          omega
      · have hsame : moveItemFromInventory s player item=s := by
          unfold moveItemFromInventory
          rw [remove_of_forall_ne fun held hheld => key_ne_of_lookup_none hnone hheld]
        rw [hsame]
        split
        · rename_i heq
          have hone := hapart guid
          have hpos := List.count_pos_iff.mpr (heq ▸ hin)
          omega
        · rfl
    refine fun guid => (ih (moveItemFromInventory s player item) (draft.addItem item)
      (nodup_remove hkeys _) (fun guid => (hmoved guid).trans_le (hapart guid)) (fun other hother => ?_) guid).trans
        (hmoved guid)
    have hlookup : lookup itemKey (player,other.guid)
        (moveItemFromInventory s player item).inventory=_ :=
      lookup_remove (player,other.guid) (player,item.guid) s.inventory
    rw [hlookup]
    by_cases heq : other.guid=item.guid
    · refine Or.inr ⟨if_pos (by rw [heq]),List.count_pos_iff.mp ?_⟩
      rw [hdraft,if_pos heq]
      exact Nat.one_pos
    · rw [if_neg fun h => heq (Prod.mk.inj h).2]
      refine (hfound other (List.mem_cons_of_mem _ hother)).imp_right fun h => ⟨h.1,?_⟩
      rw [← List.count_pos_iff,hdraft,if_neg heq]
      exact List.count_pos_iff.mpr h.2

/-- The items of a returned mail leave the table for the draft. -/
theorem refillDraft_moves (s : Post) (player : UInt32) (draft : MailDraft) (gone : List ℕ)
    (hnodup : gone.Nodup)
    (hheld : ∀ guid∈gone,(getMItem s player guid).isSome=true)
    (hapart : ∀ guid∈gone,guid∉draft.items.map Item.guid) :
    (∀ guid,((refillDraft player s draft gone).2.items.map Item.guid).count guid=
      (draft.items.map Item.guid).count guid+gone.count guid) ∧
    ∀ other guid,¬(other=player ∧ guid∈gone) →
      getMItem (refillDraft player s draft gone).1 other guid=getMItem s other guid := by
  induction gone generalizing s draft with
  | nil => exact ⟨fun _ => rfl,fun _ _ _ => rfl⟩
  | cons first gone ih =>
    obtain ⟨item,hitem⟩ := Option.isSome_iff_exists.mp (hheld first List.mem_cons_self)
    obtain rfl : item.guid=first := key_of_lookup hitem
    rw [List.nodup_cons] at hnodup
    unfold refillDraft
    rw [hitem]
    have hdraft : ∀ guid,((draft.addItem item).items.map Item.guid).count guid=
        if guid=item.guid then 1 else (draft.items.map Item.guid).count guid :=
      fun guid => count_put item guid draft.items
    have hfirst : ∀ guid∈gone,guid≠item.guid := fun guid hguid heq => hnodup.1 (heq ▸ hguid)
    have hzero := List.count_eq_zero.mpr (hapart item.guid List.mem_cons_self)
    obtain ⟨hcount,htable⟩ := ih (removeMItem s player item.guid) (draft.addItem item) hnodup.2
      (fun guid hguid => by
        rw [getMItem_removeMItem,if_neg fun h => hfirst guid hguid h.2]
        exact hheld guid (List.mem_cons_of_mem _ hguid)) (fun guid hguid => by
        rw [← List.count_eq_zero,hdraft,if_neg (hfirst guid hguid)]
        exact List.count_eq_zero.mpr (hapart guid (List.mem_cons_of_mem _ hguid)))
    refine ⟨fun guid => ?_,fun other guid hout => ?_⟩
    · rw [hcount,hdraft,List.count_cons]
      split
      · rename_i heq
        rw [heq,beq_self_eq_true,if_pos rfl]
        omega
      · rename_i hne
        rw [if_neg fun h => hne (beq_iff_eq.mp h).symm]
        rfl
    · have hne : ¬(other=player ∧ guid=item.guid) :=
        fun h => hout ⟨h.1,List.mem_cons.mpr (Or.inl h.2)⟩
      rw [htable other guid fun h => hout ⟨h.1,List.mem_cons_of_mem _ h.2⟩,getMItem_removeMItem,
        if_neg hne]

theorem attachments_found {rc : UInt32} {COD : UInt64} {itemGUIDs : List ℕ} {items : List Item}
    (h : attachments w s player rc COD itemGUIDs=some items) :
    ∀ item∈items,lookup itemKey (player,item.guid) s.inventory=some (player,item) := by
  induction itemGUIDs generalizing items with
  | nil =>
    obtain rfl := Option.some.inj h
    exact fun _ hmem => absurd hmem List.not_mem_nil
  | cons guid rest ih =>
    unfold attachments at h
    split at h
    · cases h
    rename_i item hitem
    obtain ⟨items,hrest,rfl⟩ := Option.map_eq_some_iff.mp h
    have hget : getItemByGuid s player guid=some item := by
      unfold attachable at hitem
      split_ifs at hitem
      split at hitem
      · cases hitem
      · rename_i found hfound
        split_ifs at hitem
        exact hfound.trans hitem
    obtain ⟨⟨holder,_⟩,hlookup,rfl⟩ := Option.map_eq_some_iff.mp hget
    have hkey := key_of_lookup hlookup
    obtain ⟨rfl,rfl⟩ := Prod.mk.inj hkey
    intro other hother
    rcases List.mem_cons.mp hother with rfl | hother
    · exact hlookup
    · exact ih hrest other hother

end Tables

section Steps
variable {characters : Finset UInt32} {w : World} {s s' : Post} {player : UInt32} {m : Mail}

theorem count_guids (s : Post) (guid : ℕ) :
    (guids s).count guid=(owned s).count guid+(mailed s).count guid := List.count_append

/-- Every item has one place. -/
theorem Placed.inOnePlace {guid : ℕ} (h : Placed characters s) (hguid : guid∈guids s) :
    InOnePlace s guid where
  once := (count_guids s guid).symm.trans (List.count_eq_one_of_mem h.apart hguid)
  held m hm hmem := h.held m hm guid hmem

/-- The same items, wherever they are now. -/
theorem nodup_of_count (h : (guids s).Nodup)
    (hcount : ∀ guid,(guids s').count guid ≤ (guids s).count guid) : (guids s').Nodup :=
  List.nodup_iff_count_le_one.mpr fun guid =>
    (hcount guid).trans (List.nodup_iff_count_le_one.mp h guid)

theorem nodup_itemKey (h : (guids s).Nodup) : (s.inventory.map itemKey).Nodup := by
  have howned : (owned s).Nodup := (List.nodup_append.mp h).1
  refine List.Nodup.of_map Prod.snd ?_
  rw [List.map_map]
  exact howned

/-- A new mail comes in. -/
theorem Placed.cons (h : Placed characters s) (hmails : s'.mails=m::s.mails)
    (hid : m.messageID=s.mailId) (hmailId : s'.mailId=s.mailId+1) (hsender : m.sender∈characters)
    (hreceiver : m.receiver∈characters) (hnormal : m.messageType=.normal)
    (hfree : m.state≠.deleted) (hapart : (guids s').Nodup)
    (hheld : ∀ m∈s'.mails,∀ guid∈m.items,(getMItem s' m.receiver guid).isSome=true) :
    Placed characters s' := by
  have hcases : ∀ {old : Mail},old∈s'.mails → old=m ∨ old∈s.mails := fun hold =>
    List.mem_cons.mp (hmails ▸ hold)
  refine ⟨?_,fun old hold => ?_,fun old hold => ?_,fun old hold => ?_,fun old hold => ?_,
    fun old hold => ?_,hapart,hheld⟩
  · rw [hmails,List.map_cons,List.nodup_cons]
    refine ⟨fun hmem => ?_,h.ids⟩
    obtain ⟨old,hold,heq⟩ := List.mem_map.mp hmem
    exact absurd (heq.trans hid) (h.fresh old hold).ne
  · rcases hcases hold with rfl | hold
    · omega
    · have := h.fresh old hold
      omega
  · rcases hcases hold with rfl | hold
    · exact hsender
    · exact h.sender old hold
  · rcases hcases hold with rfl | hold
    · exact hreceiver
    · exact h.receiver old hold
  · rcases hcases hold with rfl | hold
    · exact hnormal
    · exact h.normal old hold
  · rcases hcases hold with rfl | hold
    · exact fun hdeleted => absurd hdeleted hfree
    · exact h.free old hold

theorem placed_sent {rc : UInt32} {itemGUIDs : List ℕ} {items : List Item} {money COD : UInt64}
    (h : Placed characters s) (hplayer : player∈characters) (hrc : rc∈characters)
    (hitems : attachments w s player rc COD itemGUIDs=some items) :
    Placed characters (sent w s player rc itemGUIDs items money COD) ∧
    (∀ guid,(guids (sent w s player rc itemGUIDs items money COD)).count guid=
      (guids s).count guid) ∧
    mailed s ⊆ mailed (sent w s player rc itemGUIDs items money COD) := by
  unfold sent
  extract_lets paid filled
  have hmoved := fillDraft_moves paid player .new items
    (nodup_itemKey h.apart) (fun guid => by
      have hone := List.nodup_iff_count_le_one.mp h.apart guid
      rw [count_guids] at hone
      exact le_trans (Nat.le_add_right _ _) hone) fun item hitem =>
        Or.inl (attachments_found hitems item hitem)
  obtain ⟨-,hmails,hmailId,hmItems⟩ := frame_fillDraft player paid .new items
  generalize hCOD : (if itemGUIDs.length=0 then 0 else COD).toUInt32=COD'
  generalize deliver_delay w player rc itemGUIDs=delay
  obtain ⟨-,hinventory,hmailId',hmails'⟩ := frame_sendMailTo w filled.1
    ((filled.2.addMoney money).addCOD COD') rc player delay
  obtain ⟨hin,hkeep⟩ := held_sendMailTo w filled.1 ((filled.2.addMoney money).addCOD COD') rc
    player delay
  generalize MailDraft.sendMailTo w filled.1 ((filled.2.addMoney money).addCOD COD') rc player
    delay=s' at *
  rw [hmails] at hmails'
  have hmailed : mailed s'=filled.2.items.map Item.guid++mailed s := by
    unfold mailed
    rw [hmails']
    rfl
  have hcount : ∀ guid,(guids s').count guid=(guids s).count guid := by
    intro guid
    have hmove := hmoved guid
    have howned : owned s'=owned filled.1 := by
      unfold owned
      rw [hinventory]
    rw [count_guids,count_guids,howned,hmailed,List.count_append]
    change (owned filled.1).count guid+(filled.2.items.map Item.guid).count guid=
      (owned s).count guid+0 at hmove
    omega
  refine ⟨h.cons hmails' hmailId (hmailId'.trans (congrArg (·+1) hmailId)) hplayer hrc rfl (by rintro ⟨⟩)
    (nodup_of_count h.apart fun guid => (hcount guid).le) fun old hold guid hguid => ?_,hcount,
    fun guid hguid => hmailed ▸ List.mem_append_right _ hguid⟩
  rw [hmails'] at hold
  rcases List.mem_cons.mp hold with rfl | hold
  · obtain ⟨item,hitem,rfl⟩ := List.mem_map.mp hguid
    exact hin item hitem
  refine hkeep old.receiver guid ?_
  unfold getMItem
  rw [hmItems]
  exact h.held old hold guid hguid

theorem count_setMail (h : Placed characters s) (changed : Mail)
    (hget : lookup mailKey (mailKey m) s.mails=some m) (hkey : mailKey changed=mailKey m)
    (guid : ℕ) :
    (mailed (setMail s changed)).count guid+m.items.count guid=
      (mailed s).count guid+changed.items.count guid := by
  unfold mailed
  rw [List.count_flatMap,List.count_flatMap]
  exact sum_replace (fun mail : Mail => mail.items.count guid) (nodup_mailKey h.ids) (hkey ▸ hget)

theorem count_removeMail (h : Placed characters s)
    (hget : lookup mailKey (mailKey m) s.mails=some m) (guid : ℕ) :
    (mailed (removeMail s m.receiver m.messageID)).count guid+m.items.count guid=
      (mailed s).count guid := by
  unfold mailed
  rw [List.count_flatMap,List.count_flatMap]
  exact sum_remove (fun mail : Mail => mail.items.count guid) (nodup_mailKey h.ids) hget

/-- A mail is written to, and at most loses items. -/
theorem Placed.setMail (h : Placed characters s) (changed : Mail)
    (hget : lookup mailKey (mailKey m) s.mails=some m) (hkey : mailKey changed=mailKey m)
    (hsender : changed.sender=m.sender) (hnormal : changed.messageType=m.messageType)
    (hfree : changed.state=.deleted → changed.COD=0) (hitems : changed.items.Sublist m.items) :
    Placed characters (setMail s changed) := by
  have hmem := mem_of_lookup hget
  obtain ⟨hreceiver,hid⟩ := Prod.mk.inj hkey
  have hcases : ∀ {old : Mail},old∈(MailModel.setMail s changed).mails →
      old=changed ∨ old∈s.mails := mem_of_mem_replace
  have hids : (MailModel.setMail s changed).mails.map Mail.messageID=s.mails.map Mail.messageID :=
    map_replace Mail.messageID (nodup_mailKey h.ids) (hkey.symm ▸ hget) hid
  refine ⟨hids.symm ▸ h.ids,fun old hold => ?_,fun old hold => ?_,fun old hold => ?_,
    fun old hold => ?_,fun old hold => ?_,nodup_of_count h.apart fun guid => ?_,
    fun old hold guid hguid => ?_⟩
  · rcases hcases hold with rfl | hold
    · exact hid ▸ h.fresh m hmem
    · exact h.fresh old hold
  · rcases hcases hold with rfl | hold
    · exact hsender ▸ h.sender m hmem
    · exact h.sender old hold
  · rcases hcases hold with rfl | hold
    · exact hreceiver ▸ h.receiver m hmem
    · exact h.receiver old hold
  · rcases hcases hold with rfl | hold
    · exact hnormal.trans (h.normal m hmem)
    · exact h.normal old hold
  · rcases hcases hold with rfl | hold
    · exact hfree
    · exact h.free old hold
  · have hcount := count_setMail h changed hget hkey guid
    have hle := hitems.count_le guid
    rw [count_guids,count_guids]
    change (owned s).count guid+_ ≤ _
    omega
  · change (getMItem s old.receiver guid).isSome=true
    rcases hcases hold with rfl | hold
    · rw [hreceiver]
      exact h.held m hmem guid (hitems.subset hguid)
    · exact h.held old hold guid hguid

theorem Placed.removeMItem {guid : ℕ} (h : Placed characters s) (player : UInt32)
    (hout : guid∉mailed s) : Placed characters (removeMItem s player guid) :=
  ⟨h.ids,h.fresh,h.sender,h.receiver,h.normal,h.free,h.apart,fun m hm other hother => by
    have hne : ¬(m.receiver=player ∧ other=guid) := fun heq =>
      hout (heq.2 ▸ List.mem_flatMap.mpr ⟨m,hm,hother⟩)
    rw [getMItem_removeMItem,if_neg hne]
    exact h.held m hm other hother⟩

theorem Placed.store (h : Placed characters s) (w : World) (player : UInt32) (item : Item)
    (hout : item.guid∉guids s) : Placed characters (moveItemToInventory w s player item) := by
  unfold moveItemToInventory
  split
  · exact h
  refine ⟨h.ids,h.fresh,h.sender,h.receiver,h.normal,h.free,?_,h.held⟩
  have hperm : (guids { s with inventory := s.inventory++[(player,item)] }).Perm
      (item.guid::guids s) := by
    refine List.perm_iff_count.mpr fun guid => ?_
    unfold guids owned
    simp only [List.map_append,List.map_cons,List.map_nil,List.count_append,List.count_cons,
      List.count_nil]
    change _+_+(mailed s).count guid=_
    omega
  exact hperm.nodup_iff.mpr (List.nodup_cons.mpr ⟨hout,h.apart⟩)

theorem Placed.save (h : Placed characters s) (player : UInt32) :
    Placed characters (saveMail s player) ∧
    ∀ m∈s.mails,∀ guid∈m.items,guid∈mailed (saveMail s player) ∨
      m.receiver=player ∧ m.state=.deleted := by
  have hmap : ∀ {β : Type} (f : Mail → β),(∀ m state,f { m with state := state }=f m) →
      (saveMail s player).mails.map f=
        (s.mails.filter fun mail => !(mail.receiver=player && mail.state=.deleted)).map f := by
    intro β f hf
    unfold saveMail
    rw [List.map_map]
    refine List.map_congr_left fun m _ => ?_
    rw [Function.comp_apply]
    split
    · exact hf m _
    · rfl
  have hcases : ∀ {saved : Mail},saved∈(saveMail s player).mails →
      ∃ m∈s.mails,saved=m ∨ saved={ m with state := .unchanged } := mem_saveMail
  refine ⟨⟨?_,fun saved hsaved => ?_,fun saved hsaved => ?_,fun saved hsaved => ?_,
    fun saved hsaved => ?_,fun saved hsaved => ?_,nodup_of_count h.apart fun guid => ?_,
    fun saved hsaved guid hguid => ?_⟩,fun m hm guid hguid => ?_⟩
  · rw [hmap _ fun _ _ => rfl]
    exact h.ids.sublist (List.filter_sublist.map _)
  · obtain ⟨m,hm,rfl | rfl⟩ := hcases hsaved
    · exact h.fresh _ hm
    · exact h.fresh m hm
  · obtain ⟨m,hm,rfl | rfl⟩ := hcases hsaved
    · exact h.sender _ hm
    · exact h.sender m hm
  · obtain ⟨m,hm,rfl | rfl⟩ := hcases hsaved
    · exact h.receiver _ hm
    · exact h.receiver m hm
  · obtain ⟨m,hm,rfl | rfl⟩ := hcases hsaved
    · exact h.normal _ hm
    · exact h.normal m hm
  · obtain ⟨m,hm,rfl | rfl⟩ := hcases hsaved
    · exact h.free _ hm
    · rintro ⟨⟩
  · have hsub : (mailed (saveMail s player)).Sublist (mailed s) := by
      unfold mailed
      rw [List.flatMap_def,List.flatMap_def,hmap _ fun _ _ => rfl]
      exact (List.filter_sublist.map _).flatten
    rw [count_guids,count_guids]
    exact Nat.add_le_add_left (hsub.count_le guid) _
  · change (getMItem s saved.receiver guid).isSome=true
    obtain ⟨m,hm,rfl | rfl⟩ := hcases hsaved
    · exact h.held _ hm guid hguid
    · exact h.held m hm guid hguid
  · by_cases hgone : m.receiver=player ∧ m.state=.deleted
    · exact Or.inr hgone
    refine Or.inl (List.mem_flatMap.mpr ?_)
    have hkept : m∈s.mails.filter fun mail => !(mail.receiver=player && mail.state=.deleted) :=
      List.mem_filter.mpr ⟨hm,by simpa using not_and_or.mp hgone⟩
    refine ⟨_,List.mem_map.mpr ⟨m,hkept,rfl⟩,?_⟩
    split
    · exact hguid
    · exact hguid

/-- The COD of a mail is sent to its sender, and exactly if it fits into 31 bits the
receiver is debited with it. -/
structure Paid (s : Post) (m : Mail) (s' : Post) : Prop where
  enough : m.COD ≤ s.money m.receiver
  sent : ∃ cod∈s'.mails,cod.state≠.deleted ∧ cod.messageID=s.mailId ∧ cod.receiver=m.sender ∧
    cod.money=m.COD
  debited : m.COD.toNat < 2^31 →
    (s'.money m.receiver).toNat+m.COD.toNat=(s.money m.receiver).toNat

theorem placed_payCOD (h : Placed characters s) (hm : m∈s.mails)
    (hexists : receiverExists w m.sender=true) :
    Placed characters (payCOD w s m.receiver m) ∧
    owned (payCOD w s m.receiver m)=owned s ∧ mailed (payCOD w s m.receiver m)=mailed s ∧
    s.mails ⊆ (payCOD w s m.receiver m).mails ∧
    (∀ player guid,(getMItem s player guid).isSome=true →
      (getMItem (payCOD w s m.receiver m) player guid).isSome=true) ∧
    (m.COD≠0 → m.COD ≤ s.money m.receiver → Paid s m (payCOD w s m.receiver m)) := by
  unfold payCOD
  by_cases hpos : 0 < m.COD
  · rw [if_pos hpos,if_pos hexists]
    obtain ⟨hmoney,hinventory,hmailId,hmails⟩ :=
      frame_sendMailTo w s (MailDraft.new.addMoney m.COD) m.sender m.receiver 0
    obtain ⟨-,hkeep⟩ := held_sendMailTo w s (MailDraft.new.addMoney m.COD) m.sender m.receiver 0
    generalize MailDraft.sendMailTo w s (MailDraft.new.addMoney m.COD) m.sender m.receiver 0=s' at *
    have howned : owned s'=owned s := by
      unfold owned
      rw [hinventory]
    have hmailed : mailed s'=mailed s := by
      unfold mailed
      rw [hmails]
      rfl
    have hplaced : Placed characters s' := by
      refine h.cons hmails rfl hmailId (h.receiver m hm) (h.sender m hm) rfl (by rintro ⟨⟩)
        (nodup_of_count h.apart fun guid => ?_) fun old hold guid hguid => ?_
      · rw [count_guids,count_guids,howned,hmailed]
      rw [hmails] at hold
      rcases List.mem_cons.mp hold with rfl | hold
      · exact absurd hguid List.not_mem_nil
      · exact hkeep _ _ (h.held old hold guid hguid)
    refine ⟨⟨hplaced.ids,hplaced.fresh,hplaced.sender,hplaced.receiver,hplaced.normal,hplaced.free,
      hplaced.apart,hplaced.held⟩,howned,hmailed,fun old hold => hmails ▸ List.mem_cons_of_mem _ hold,
      hkeep,fun _ henough => ⟨henough,?_,fun hsmall => ?_⟩⟩
    · change ∃ cod∈s'.mails,_
      rw [hmails]
      exact ⟨_,List.mem_cons_self,(by rintro ⟨⟩),rfl,rfl,rfl⟩
    · dsimp only
      rw [Function.update_self,toInt64_neg_toInt32 hsmall,hmoney,
        ModifyMoney_debit henough (by omega),UInt64.toNat_sub_of_le _ _ henough]
      exact Nat.sub_add_cancel (UInt64.le_iff_toNat_le.mp henough)
  · have hzero : m.COD=0 := UInt64.toNat_inj.mp
      (Nat.eq_zero_of_not_pos fun hlt => hpos (UInt64.lt_iff_toNat_lt.mpr hlt))
    rw [if_neg hpos]
    exact ⟨h,rfl,rfl,fun _ => id,fun _ _ => id,fun hne => absurd hzero hne⟩

theorem placed_returned (h : Placed characters s)
    (hget : lookup mailKey (mailKey m) s.mails=some m) (hexists : receiverExists w m.sender=true) :
    Placed characters (returned w s m.receiver m) ∧
    (∀ guid,(guids (returned w s m.receiver m)).count guid=(guids s).count guid) ∧
    mailed s ⊆ mailed (returned w s m.receiver m) := by
  have hmem := mem_of_lookup hget
  have hcount := count_removeMail h hget
  have hremoved : Placed characters (removeMail s m.receiver m.messageID) := by
    refine ⟨h.ids.sublist (List.filter_sublist.map _),fun old hold => h.fresh old (mem_remove.mp hold).1,
      fun old hold => h.sender old (mem_remove.mp hold).1,
      fun old hold => h.receiver old (mem_remove.mp hold).1,
      fun old hold => h.normal old (mem_remove.mp hold).1,
      fun old hold => h.free old (mem_remove.mp hold).1,nodup_of_count h.apart fun guid => ?_,
      fun old hold => h.held old (mem_remove.mp hold).1⟩
    have hle := hcount guid
    rw [count_guids,count_guids]
    change (owned s).count guid+_ ≤ _
    omega
  have hone : ∀ guid,(owned s).count guid+(mailed s).count guid ≤ 1 := fun guid =>
    count_guids s guid ▸ List.nodup_iff_count_le_one.mp h.apart guid
  have hheld : ∀ guid∈m.items,
      (getMItem (removeMail s m.receiver m.messageID) m.receiver guid).isSome=true := h.held m hmem
  have howned : owned (removeMail s m.receiver m.messageID)=owned s := rfl
  unfold returned
  generalize removeMail s m.receiver m.messageID=removed at *
  have hitems : m.items.Nodup := List.nodup_iff_count_le_one.mpr fun guid => by
    have hle := hcount guid
    have hle' := hone guid
    omega
  obtain ⟨hdraft,htable⟩ := refillDraft_moves removed m.receiver .new m.items hitems hheld
    fun _ _ => List.not_mem_nil
  obtain ⟨-,hmails,hmailId,hinventory,-⟩ := frame_refillDraft m.receiver removed .new m.items
  generalize refillDraft m.receiver removed .new m.items=refilled at *
  obtain ⟨delay,hsent⟩ := sendReturnToSender_eq refilled.1 (refilled.2.addMoney m.money)
    (w.account m.receiver) m.receiver hexists
  obtain ⟨-,hinventory',hmailId',hmails'⟩ :=
    frame_sendMailTo w refilled.1 (refilled.2.addMoney m.money) m.sender m.receiver delay
  obtain ⟨hin,hkeep⟩ :=
    held_sendMailTo w refilled.1 (refilled.2.addMoney m.money) m.sender m.receiver delay
  dsimp only
  rw [hsent]
  generalize MailDraft.sendMailTo w refilled.1 (refilled.2.addMoney m.money) m.sender m.receiver
    delay=s' at *
  rw [hmails] at hmails'
  have hmailed : mailed s'=refilled.2.items.map Item.guid++mailed removed := by
    unfold mailed
    rw [hmails']
    rfl
  have hguids : ∀ guid,(mailed s').count guid=(mailed s).count guid := by
    intro guid
    have hdraft' := hdraft guid
    have hle := hcount guid
    change _=0+_ at hdraft'
    rw [hmailed,List.count_append]
    omega
  have howned' : owned s'=owned s := by
    rw [← howned]
    unfold owned
    rw [hinventory',hinventory]
  have hall : ∀ guid,(guids s').count guid=(guids s).count guid := fun guid => by
    rw [count_guids,count_guids,howned',hguids]
  refine ⟨hremoved.cons hmails' hmailId (hmailId'.trans (congrArg (·+1) hmailId))
    (h.receiver m hmem) (h.sender m hmem) rfl (by rintro ⟨⟩)
    (nodup_of_count h.apart fun guid => (hall guid).le) fun old hold guid hguid => ?_,hall,
    fun guid hguid => ?_⟩
  · rw [hmails'] at hold
    rcases List.mem_cons.mp hold with rfl | hold
    · obtain ⟨item,hitem,rfl⟩ := List.mem_map.mp hguid
      exact hin item hitem
    refine hkeep old.receiver guid ?_
    have hother : ¬(old.receiver=m.receiver ∧ guid∈m.items) := by
      rintro ⟨-,hboth⟩
      have hpos := List.count_pos_iff.mpr hboth
      have hpos' : 0 < (mailed removed).count guid :=
        List.count_pos_iff.mpr (List.mem_flatMap.mpr ⟨old,hold,hguid⟩)
      have hle := hcount guid
      have hle' := hone guid
      omega
    rw [htable _ _ hother]
    exact hremoved.held old hold guid hguid
  · rw [← List.count_pos_iff,hguids]
    exact List.count_pos_iff.mpr hguid

theorem placed_taken {it : Item} (h : Placed characters s)
    (hget : lookup mailKey (mailKey m) s.mails=some m) (hexists : receiverExists w m.sender=true)
    (hitem : it.guid∈m.items) (henough : m.COD ≤ s.money m.receiver) :
    Placed characters (taken w s m.receiver m it) ∧
    (∀ guid∈guids s,guid∈guids (taken w s m.receiver m it) ∨
      guid=it.guid ∧ w.merges m.receiver it=true ∨
      ∃ old∈s.mails,guid∈old.items ∧ old.receiver=m.receiver ∧ old.state=.deleted) ∧
    ∀ old∈s.mails,old.COD≠0 → ∀ guid∈old.items,guid∈mailed (taken w s m.receiver m it) ∨
      Paid s old (taken w s m.receiver m it) := by
  have hmem := mem_of_lookup hget
  obtain ⟨hpaid,howned,hmailed,hsub,-,hpays⟩ := placed_payCOD h hmem hexists
  unfold taken
  dsimp only
  generalize payCOD w s m.receiver m=paid at *
  have hget' : lookup mailKey (mailKey m) paid.mails=some m :=
    lookup_of_mem (nodup_mailKey hpaid.ids) (hsub hmem)
  generalize hchanged :
    ({ m with items := m.items.erase it.guid, COD := 0, state := .changed } : Mail)=changed
  have hkey : mailKey changed=mailKey m := by
    rw [← hchanged]
    rfl
  have hwritten : Placed characters (MailModel.setMail paid changed) := by
    subst hchanged
    exact hpaid.setMail _ hget' rfl rfl rfl (by rintro ⟨⟩) List.erase_sublist
  have hone : (owned s).count it.guid+(mailed s).count it.guid ≤ 1 :=
    count_guids s it.guid ▸ List.nodup_iff_count_le_one.mp h.apart it.guid
  have hin : 0 < m.items.count it.guid := List.count_pos_iff.mpr hitem
  have hcount := count_setMail hpaid changed hget' hkey it.guid
  have herase : changed.items.count it.guid=m.items.count it.guid-1 := by
    rw [← hchanged]
    exact List.count_erase_self
  have hremoved := count_removeMail h hget it.guid
  rw [hmailed] at hcount
  have hout : it.guid∉mailed (MailModel.setMail paid changed) :=
    List.count_eq_zero.mp (by omega)
  have hnot : it.guid∉owned s := List.count_eq_zero.mp (by omega)
  have htable := hwritten.removeMItem m.receiver hout
  have hstored := htable.store w m.receiver it fun hguid =>
    (List.mem_append.mp hguid).elim (fun hguid => hnot (howned ▸ hguid)) hout
  obtain ⟨hmoney,hmails,-,-⟩ := frame_moveItemToInventory w
    (MailModel.removeMItem (MailModel.setMail paid changed) m.receiver it.guid) m.receiver it
  have hinventory : (∀ guid∈owned s,guid∈owned (moveItemToInventory w
      (MailModel.removeMItem (MailModel.setMail paid changed) m.receiver it.guid) m.receiver it)) ∧
      (¬w.merges m.receiver it=true → it.guid∈owned (moveItemToInventory w
        (MailModel.removeMItem (MailModel.setMail paid changed) m.receiver it.guid) m.receiver
        it)) := by
    rw [← howned]
    unfold moveItemToInventory
    split
    · rename_i hmerges
      exact ⟨fun _ => id,fun hnot => absurd hmerges hnot⟩
    have hmap : owned { paid with inventory := paid.inventory++[(m.receiver,it)] }=
        owned paid++[it.guid] := List.map_append
    refine ⟨fun guid hguid => ?_,fun _ => ?_⟩
    · exact hmap.symm ▸ List.mem_append_left _ hguid
    · exact hmap.symm ▸ List.mem_append_right _ List.mem_cons_self
  generalize moveItemToInventory w
    (MailModel.removeMItem (MailModel.setMail paid changed) m.receiver it.guid) m.receiver it=
      stored at *
  obtain ⟨hplaced,hsaved⟩ := hstored.save m.receiver
  have hother : ∀ old∈s.mails,old≠m → ∀ guid∈old.items,
      guid∈mailed (saveMail stored m.receiver) ∨ old.receiver=m.receiver ∧ old.state=.deleted := by
    intro old hold hne guid hguid
    refine hsaved old ?_ guid hguid
    rw [hmails]
    refine mem_replace_of_ne (hsub hold) fun heq => hne ?_
    exact List.inj_on_of_nodup_map (nodup_mailKey h.ids) hold hmem (heq.trans hkey)
  have hsame : ∀ guid∈m.items,guid≠it.guid → guid∈mailed (saveMail stored m.receiver) := by
    intro guid hguid hne
    have hlisted : changed∈stored.mails := by
      rw [hmails]
      exact (replace_perm (nodup_mailKey hpaid.ids) (hkey.symm ▸ hget')).mem_iff.mpr
        List.mem_cons_self
    refine (hsaved changed hlisted guid ?_).resolve_right fun hgone => ?_
    · rw [← hchanged]
      exact (List.mem_erase_of_ne hne).mpr hguid
    · rw [← hchanged] at hgone
      cases hgone.2
  refine ⟨hplaced,fun guid hguid => ?_,fun old hold hcod guid hguid => ?_⟩
  · rcases List.mem_append.mp hguid with hguid | hguid
    · exact Or.inl (List.mem_append_left _ (hinventory.1 guid hguid))
    obtain ⟨old,hold,hguid⟩ := List.mem_flatMap.mp hguid
    by_cases heq : old=m
    · subst heq
      by_cases hit : guid=it.guid
      · by_cases hmerges : w.merges old.receiver it=true
        · exact Or.inr (Or.inl ⟨hit,hmerges⟩)
        · exact Or.inl (List.mem_append_left _ (hit ▸ hinventory.2 hmerges))
      · exact Or.inl (List.mem_append_right _ (hsame guid hguid hit))
    · rcases hother old hold heq guid hguid with hin | hgone
      · exact Or.inl (List.mem_append_right _ hin)
      · exact Or.inr (Or.inr ⟨old,hold,hguid,hgone⟩)
  · by_cases heq : old=m
    · subst heq
      right
      obtain ⟨henough,⟨cod,hcods,hstate,hid,hfields⟩,hdebited⟩ := hpays hcod henough
      have hlisted : cod∈stored.mails := by
        rw [hmails]
        refine mem_replace_of_ne hcods fun hsame => (h.fresh old hmem).ne ?_
        exact (Prod.mk.inj (hsame.trans hkey)).2.symm.trans hid
      obtain ⟨saved,hsaved,hcases⟩ := exists_saveMail hlisted hstate old.receiver
      refine ⟨henough,⟨saved,hsaved,?_⟩,fun hsmall => ?_⟩
      · rcases hcases with rfl | rfl
        · exact ⟨hstate,hid,hfields⟩
        · exact ⟨(by rintro ⟨⟩),hid,hfields⟩
      · change (stored.money old.receiver).toNat+_=_
        rw [hmoney]
        exact hdebited hsmall
    · refine (hother old hold heq guid hguid).imp_right fun hgone => ?_
      exact absurd (h.free old hold hgone.2) hcod

/-- Taking money moves no item, but the mailbox is saved. -/
theorem placed_emptied (h : Placed characters s) (money : UInt64)
    (hget : lookup mailKey (mailKey m) s.mails=some m) :
    Placed characters (emptied s m.receiver m money) ∧
    ∀ old∈s.mails,∀ guid∈old.items,guid∈mailed (emptied s m.receiver m money) ∨
      old.receiver=m.receiver ∧ old.state=.deleted := by
  have hmem := mem_of_lookup hget
  unfold emptied
  extract_lets credited
  have hcredited : Placed characters credited :=
    ⟨h.ids,h.fresh,h.sender,h.receiver,h.normal,h.free,h.apart,h.held⟩
  have hwritten := hcredited.setMail { m with money := 0, state := .changed } hget rfl rfl rfl
    (by rintro ⟨⟩) (List.Sublist.refl _)
  obtain ⟨hplaced,hsaved⟩ := hwritten.save m.receiver
  refine ⟨hplaced,fun old hold guid hguid => ?_⟩
  by_cases heq : old=m
  · subst heq
    have hlisted := (replace_perm (b := { old with money := 0, state := .changed })
      (nodup_mailKey h.ids) hget).mem_iff.mpr List.mem_cons_self
    exact Or.inl ((hsaved _ hlisted guid hguid).resolve_right fun hgone => by cases hgone.2)
  · refine hsaved old (mem_replace_of_ne hold fun hkey => heq ?_) guid hguid
    exact List.inj_on_of_nodup_map (nodup_mailKey h.ids) hold hmem hkey

/-- A deleted mail keeps its items until it is saved. -/
theorem placed_deleted (h : Placed characters s)
    (hget : lookup mailKey (mailKey m) s.mails=some m) (hCOD : m.COD=0) :
    Placed characters (setMail s { m with state := .deleted }) ∧
    mailed s ⊆ mailed (setMail s { m with state := .deleted }) := by
  refine ⟨h.setMail _ hget rfl rfl rfl (fun _ => hCOD) (List.Sublist.refl _),fun guid hguid => ?_⟩
  have hcount := count_setMail h { m with state := .deleted } hget rfl guid
  have hpos := List.count_pos_iff.mpr hguid
  dsimp only at hcount
  exact List.count_pos_iff.mp (by omega)

/-- Deleting is refused, does nothing or marks a mail without COD. -/
theorem handleMailDelete_cases (w : World) (s : Post) (player : UInt32) (mailId : ℕ) :
    handleMailDelete w s player mailId=(s,false) ∨ handleMailDelete w s player mailId=(s,true) ∨
    ∃ m,getMail w s player mailId=some m ∧ m.COD=0 ∧
      handleMailDelete w s player mailId=(setMail s { m with state := .deleted },true) := by
  unfold handleMailDelete
  split
  · exact Or.inl rfl
  split
  · exact Or.inr (Or.inl rfl)
  rename_i m hm
  split
  · exact Or.inl rfl
  · rename_i hCOD
    exact Or.inr (Or.inr ⟨m,hm,not_not.mp hCOD,rfl⟩)

end Steps

/-- The characters exist, their mailboxes are loaded, and one of them acts. -/
def Existing (characters : Finset UInt32) (step : World×MailOp) : Prop :=
  (∀ player∈characters,step.1.online player=true ∧ step.1.mailsLoaded player=true) ∧
  match step.2 with
  | .sendMail player receiver _ _ _ => player∈characters ∧ ∀ rc∈receiver,rc∈characters
  | .takeMoney player _ _ => player∈characters
  | .takeItem player _ _ => player∈characters
  | .returnToSender player _ => player∈characters
  | .delete player _ => player∈characters

/-- The item is merged into other stacks of the player who takes it. -/
def Merged (s : Post) (step : World×MailOp) (guid : ℕ) : Prop :=
  match step.2 with
  | .takeItem player _ itemId => guid=itemId ∧
      ∃ it,getMItem s player itemId=some it ∧ step.1.merges player it=true
  | _ => False

/-- The item is in a deleted mail of the player whose mailbox is saved. -/
def Swept (s : Post) (step : World×MailOp) (guid : ℕ) : Prop :=
  match step.2 with
  | .takeItem player _ _ => ∃ m∈s.mails,guid∈m.items ∧ m.receiver=player ∧ m.state=.deleted
  | .takeMoney player _ _ => ∃ m∈s.mails,guid∈m.items ∧ m.receiver=player ∧ m.state=.deleted
  | _ => False

/-- What an accepted operation does to the items. -/
structure Moves (s : Post) (step : World×MailOp) (s' : Post) : Prop where
  /-- Every item is still somewhere, unless it is merged or swept away. -/
  stays : ∀ guid∈guids s,guid∈guids s' ∨ Merged s step guid ∨ Swept s step guid
  /-- An item leaves a mail with COD only when the COD is paid. -/
  paid : ∀ m∈s.mails,m.COD≠0 → ∀ guid∈m.items,guid∈mailed s' ∨ Paid s m s'

/-- An operation is refused and moves nothing, or moves what it may. -/
def Conserves (s : Post) (step : World×MailOp) (s' : Post) : Prop :=
  if (apply step.1 s step.2).2 then Moves s step s' else s'=s

/-- One step. -/
def stepOn (s : Post) (step : World×MailOp) : Post := (apply step.1 s step.2).1

section Runs
variable {characters : Finset UInt32} {s s' : Post}

theorem refused_step {step : World×MailOp} (h : Placed characters s)
    (hrefused : apply step.1 s step.2=(s,false)) :
    Placed characters (stepOn s step) ∧ Conserves s step (stepOn s step) := by
  unfold stepOn Conserves
  rw [hrefused]
  exact ⟨h,rfl⟩

/-- An operation that goes through. -/
theorem accepted_step {step : World×MailOp} (haccepted : apply step.1 s step.2=(s',true))
    (h : Placed characters s') (hmoves : Moves s step s') :
    Placed characters (stepOn s step) ∧ Conserves s step (stepOn s step) := by
  unfold stepOn Conserves
  rw [haccepted]
  exact ⟨h,hmoves⟩

/-- An operation after which all items are there, those of mails in mails. -/
theorem moves_of_count {step : World×MailOp}
    (hcount : ∀ guid,(guids s').count guid=(guids s).count guid)
    (hmailed : mailed s ⊆ mailed s') : Moves s step s' where
  stays guid hguid := Or.inl (List.count_pos_iff.mp (hcount guid ▸ List.count_pos_iff.mpr hguid))
  paid m hm _ _ hguid := Or.inl (hmailed (List.mem_flatMap.mpr ⟨m,hm,hguid⟩))

theorem Placed.step {step : World×MailOp} (h : Placed characters s)
    (hexisting : Existing characters step) :
    Placed characters (stepOn s step) ∧ Conserves s step (stepOn s step) := by
  obtain ⟨w,op⟩ := step
  obtain ⟨hloaded,hop⟩ := hexisting
  have hexists : ∀ player∈characters,receiverExists w player=true := by
    intro player hplayer
    unfold receiverExists
    rw [(hloaded player hplayer).1,Bool.true_or]
  cases op with
  | sendMail player receiver itemGUIDs money COD =>
    rcases handleSendMail_cases w s player receiver itemGUIDs money COD with
      hrefused | ⟨rc,items,rfl,-,-,-,-,hitems,hsent⟩
    · exact refused_step h hrefused
    · obtain ⟨hplaced,hcount,hmailed⟩ := placed_sent h hop.1 (hop.2 rc rfl) hitems
      exact accepted_step hsent hplaced (moves_of_count hcount hmailed)
  | takeMoney player mailId money =>
    rcases handleMailTakeMoney_cases w s player mailId money with
      hrefused | ⟨m,-,hm,-,-,-,htaken⟩
    · exact refused_step h hrefused
    obtain ⟨hget,rfl,-⟩ := getMail_eq_some hm
    obtain ⟨hplaced,hsaved⟩ := placed_emptied h money hget
    refine accepted_step htaken hplaced ⟨fun guid hguid => ?_,fun old hold hCOD guid hguid => ?_⟩
    · rcases List.mem_append.mp hguid with hguid | hguid
      · exact Or.inl (List.mem_append_left _ hguid)
      obtain ⟨old,hold,hguid⟩ := List.mem_flatMap.mp hguid
      rcases hsaved old hold guid hguid with hin | hgone
      · exact Or.inl (List.mem_append_right _ hin)
      · exact Or.inr (Or.inr ⟨old,hold,hguid,hgone⟩)
    · exact Or.inl ((hsaved old hold guid hguid).resolve_right fun hgone =>
        hCOD (h.free old hold hgone.2))
  | takeItem player mailId itemId =>
    rcases handleMailTakeItem_cases w s player mailId itemId with
      hrefused | ⟨m,it,⟨-,hm,-,hlisted,henough,hit,-⟩,htaken⟩
    · exact refused_step h hrefused
    obtain ⟨hget,rfl,-⟩ := getMail_eq_some hm
    obtain rfl : it.guid=itemId := key_of_lookup hit
    obtain ⟨hplaced,hstays,hpaid⟩ := placed_taken h hget
      (hexists _ (h.sender m (mem_of_lookup hget))) hlisted henough
    exact accepted_step htaken hplaced ⟨fun guid hguid => (hstays guid hguid).imp_right
      (Or.imp_left fun hmerged => ⟨hmerged.1,it,hit,hmerged.2⟩),hpaid⟩
  | returnToSender player mailId =>
    rcases handleMailReturnToSender_cases w s player mailId with
      hrefused | ⟨m,hm,-,-,hreturned⟩
    · exact refused_step h hrefused
    obtain ⟨hget,rfl,-⟩ := getMail_eq_some hm
    have hmem := mem_of_lookup hget
    obtain ⟨hplaced,hcount,hmailed⟩ := placed_returned h hget (hexists _ (h.sender m hmem))
    exact accepted_step (hreturned (h.normal m hmem)) hplaced (moves_of_count hcount hmailed)
  | delete player mailId =>
    rcases handleMailDelete_cases w s player mailId with
      hrefused | hnothing | ⟨m,hm,hCOD,hdeleted⟩
    · exact refused_step h hrefused
    · exact accepted_step hnothing h (moves_of_count (fun _ => rfl) (List.Subset.refl _))
    obtain ⟨hget,-,-⟩ := getMail_eq_some hm
    obtain ⟨hplaced,hmailed⟩ := placed_deleted h hget hCOD
    refine accepted_step hdeleted hplaced ⟨fun guid hguid => Or.inl ?_,
      fun old hold _ guid hguid => Or.inl (hmailed (List.mem_flatMap.mpr ⟨old,hold,hguid⟩))⟩
    rcases List.mem_append.mp hguid with hguid | hguid
    · exact List.mem_append_left _ hguid
    · exact List.mem_append_right _ (hmailed hguid)

/-- In every run between existing characters with loaded mailboxes, every item is in one
place at every time, and each step moves at most what it may. -/
theorem mail_items (characters : Finset UInt32) (s : Post) (before after : List (World×MailOp))
    (step : World×MailOp) (h : Placed characters s)
    (hexisting : Meets stepOn (fun _ => Existing characters) s (before++step::after)) :
    (∀ guid∈guids (run stepOn s before),InOnePlace (run stepOn s before) guid) ∧
    Conserves (run stepOn s before) step (stepOn (run stepOn s before) step) := by
  obtain ⟨hbefore,hstep,-⟩ := meets_append.mp hexisting
  have hplaced : Placed characters (run stepOn s before) :=
    run_invariant (fun _ _ h hexisting => (h.step hexisting).1) h hbefore
  exact ⟨fun guid hguid => hplaced.inOnePlace hguid,(hplaced.step hstep).2⟩

end Runs

/-- Two items of one player. -/
def twoItems : Post where
  money := fun _ => 5000
  inventory := [(1,⟨7,false,true,false,false,false,0,false,false⟩),
    (1,⟨8,false,true,false,false,false,0,false,false⟩)]
  mails := []
  mItems := fun _ => []
  mailId := 1

/-- An item is sent. -/
def sendItem (guid : ℕ) : World×MailOp := (openWorld,.sendMail 1 (some 2) [guid,guid] 0 0)

theorem placed_twoItems : Placed {1,2} twoItems :=
  ⟨List.nodup_nil,(by rintro _ ⟨⟩),(by rintro _ ⟨⟩),(by rintro _ ⟨⟩),(by rintro _ ⟨⟩),(by rintro _ ⟨⟩),by decide,(by rintro _ ⟨⟩)⟩

theorem existing_sendItem (guid : ℕ) : Existing {1,2} (sendItem guid) := by
  refine ⟨fun _ _ => ⟨rfl,rfl⟩,by decide,fun rc hrc => ?_⟩
  obtain rfl := Option.some.inj hrc
  decide

/-- An item that a packet lists twice is in one mail. -/
theorem mail_items_sent : InOnePlace (run stepOn twoItems [sendItem 7]) 7 :=
  (mail_items {1,2} twoItems [sendItem 7] [] (sendItem 8) placed_twoItems
    ⟨existing_sendItem 7,existing_sendItem 8,trivial⟩).1 7 (by decide)

/-- A mail that is deleted with an item inside is gone, and the item as well, when the
mailbox is saved. -/
theorem deleted_mail_loses_item :
    ¬∀ (characters : Finset UInt32) (s : Post) (steps : List (World×MailOp)),
      Placed characters s → Meets stepOn (fun _ => Existing characters) s steps →
      (∀ step∈steps,∀ player item,step.1.merges player item=false) →
      ∀ guid∈guids s,InOnePlace (run stepOn s steps) guid := by
  intro h
  have hplayer : (2 : UInt32)∈({1,2} : Finset UInt32) := by decide
  have hlost := h {1,2} twoItems
    [sendItem 7,sendItem 8,(openWorld,.delete 2 1),(openWorld,.takeItem 2 2 8)] placed_twoItems
    ⟨existing_sendItem 7,existing_sendItem 8,⟨fun _ _ => ⟨rfl,rfl⟩,hplayer⟩,
      ⟨fun _ _ => ⟨rfl,rfl⟩,hplayer⟩,trivial⟩ (fun step hstep player item => by
        simp only [List.mem_cons,List.not_mem_nil,or_false] at hstep
        rcases hstep with rfl | rfl | rfl | rfl
        · rfl
        · rfl
        · rfl
        · rfl) 7 (by decide)
  have honce := hlost.once
  revert honce
  decide

end Projectnelth.MailItems
