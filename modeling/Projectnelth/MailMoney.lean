import Mathlib
import Projectnelth.MailModel
import Projectnelth.RunInvariant

/-!
# The money of the mail

The money of the players and the money inside the mails are one sum, which only the
postage leaves. A COD passes through 32 bits on its way into a mail and through 31 on
its way out, and money is taken out of a mail for a stated amount of nothing; a run
without either is exact.
-/

namespace Projectnelth.MailMoney

open KeyedList PlayerMoney MailModel RunInvariant

/-- What an accepted `HandleSendMail` does. -/
def sent (w : World) (s : Post) (player rc : UInt32) (itemGUIDs : List ℕ) (items : List Item)
    (money COD : UInt64) : Post :=
  let paid := { s with
    money :=
      Function.update s.money player
        (ModifyMoney (s.money player) (-((postage itemGUIDs).toUInt64+money).toInt64)).1 }
  let filled := fillDraft player paid .new items
  ((filled.2.addMoney money).addCOD (if itemGUIDs.length=0 then 0 else COD).toUInt32).sendMailTo w
    filled.1 rc player (deliver_delay w player rc itemGUIDs)

/-- What an accepted `HandleMailTakeItem` does. -/
def taken (w : World) (s : Post) (player : UInt32) (m : Mail) (it : Item) : Post :=
  let changed := setMail (payCOD w s player m)
    { m with items := m.items.erase it.guid, COD := 0, state := .changed }
  saveMail (moveItemToInventory w (removeMItem changed player it.guid) player it) player

/-- What an accepted `HandleMailTakeMoney` does. -/
def emptied (s : Post) (player : UInt32) (m : Mail) (money : UInt64) : Post :=
  let credited := { s with
    money :=
      Function.update s.money player (ModifyMoney (s.money player) money.toInt64).1 }
  saveMail (setMail credited { m with money := 0, state := .changed }) player

/-- What an accepted `HandleMailReturnToSender` does. -/
def returned (w : World) (s : Post) (player : UInt32) (m : Mail) : Post :=
  let refilled := refillDraft player (removeMail s player m.messageID) .new m.items
  (refilled.2.addMoney m.money).sendReturnToSender w refilled.1 (w.account player) m.receiver
    m.sender

section Handlers
variable {w : World} {s : Post} {player : UInt32} {mailId : ℕ} {m : Mail}

theorem getMail_eq_some (h : getMail w s player mailId=some m) :
    lookup mailKey (mailKey m) s.mails=some m ∧ m.receiver=player ∧ m.messageID=mailId := by
  unfold getMail at h
  split at h
  · have hkey := key_of_lookup h
    obtain ⟨hreceiver,hid⟩ := Prod.mk.inj hkey
    exact ⟨hkey.symm ▸ h,hreceiver,hid⟩
  · cases h

theorem handleSendMail_cases (w : World) (s : Post) (player : UInt32) (receiver : Option UInt32)
    (itemGUIDs : List ℕ) (money COD : UInt64) :
    handleSendMail w s player receiver itemGUIDs money COD=(s,false) ∨
    ∃ rc items,receiver=some rc ∧ player≠rc ∧ itemGUIDs.length ≤ MAX_MAIL_ITEMS ∧
      money ≤ (postage itemGUIDs).toUInt64+money ∧
      (postage itemGUIDs).toUInt64+money ≤ s.money player ∧
      attachments w s player rc COD itemGUIDs=some items ∧
      handleSendMail w s player receiver itemGUIDs money COD=
        (sent w s player rc itemGUIDs items money COD,true) := by
  generalize hr : handleSendMail w s player receiver itemGUIDs money COD=r
  unfold handleSendMail at hr
  by_cases hlength : MAX_MAIL_ITEMS < itemGUIDs.length
  · exact Or.inl (hr.symm.trans (if_pos hlength))
  rw [if_neg hlength] at hr
  split at hr
  · exact Or.inl hr.symm
  split at hr
  · exact Or.inl hr.symm
  cases receiver with
  | none => exact Or.inl hr.symm
  | some rc =>
    dsimp only at hr
    split at hr
    · exact Or.inl hr.symm
    rename_i hself
    split at hr
    · exact Or.inl hr.symm
    rename_i hoverflow
    split at hr
    · exact Or.inl hr.symm
    rename_i henough
    split at hr
    · exact Or.inl hr.symm
    split at hr
    · exact Or.inl hr.symm
    split at hr
    · exact Or.inl hr.symm
    split at hr
    · exact Or.inl hr.symm
    · rename_i items hitems
      exact Or.inr ⟨rc,items,rfl,hself,Nat.not_lt.mp hlength,UInt64.not_lt.mp hoverflow,
        not_not.mp henough,hitems,hr.symm⟩

theorem handleMailTakeMoney_cases (w : World) (s : Post) (player : UInt32) (mailId : ℕ)
    (money : UInt64) :
    handleMailTakeMoney w s player mailId money=(s,false) ∨
    ∃ m,w.canInteract player=true ∧ getMail w s player mailId=some m ∧ available w m=true ∧
      (money=0 ∨ m.money=money) ∧ (ModifyMoney (s.money player) money.toInt64).2=true ∧
      handleMailTakeMoney w s player mailId money=(emptied s player m money,true) := by
  unfold handleMailTakeMoney
  split
  · exact Or.inl rfl
  rename_i hinteract
  split
  · exact Or.inl rfl
  rename_i m hm
  split
  · exact Or.inl rfl
  rename_i hchecks
  dsimp only
  split
  · exact Or.inl rfl
  rename_i hmodified
  simp only [not_or,not_and,not_not,Bool.not_eq_true',Bool.not_eq_false]
    at hinteract hchecks hmodified
  refine Or.inr ⟨m,hinteract,hm,hchecks.1,?_,hmodified,rfl⟩
  by_cases hzero : money=0
  · exact Or.inl hzero
  · exact Or.inr (hchecks.2 (UInt64.pos_iff_ne_zero.mpr hzero))

/-- What `HandleMailTakeItem` asks for. -/
structure Takes (w : World) (s : Post) (player : UInt32) (mailId itemId : ℕ) (m : Mail) (it : Item) :
    Prop where
  interacts : w.canInteract player=true
  mail : getMail w s player mailId=some m
  available : available w m=true
  listed : itemId∈m.items
  enough : m.COD ≤ s.money player
  item : getMItem s player itemId=some it
  room : w.canStoreItem player it=true

theorem handleMailTakeItem_cases (w : World) (s : Post) (player : UInt32) (mailId itemId : ℕ) :
    handleMailTakeItem w s player mailId itemId=(s,false) ∨
    ∃ m it,Takes w s player mailId itemId m it ∧
      handleMailTakeItem w s player mailId itemId=(taken w s player m it,true) := by
  unfold handleMailTakeItem
  split
  · exact Or.inl rfl
  rename_i hinteract
  split
  · exact Or.inl rfl
  rename_i m hm
  split
  · exact Or.inl rfl
  rename_i havailable
  split
  · exact Or.inl rfl
  rename_i hlisted
  split
  · exact Or.inl rfl
  rename_i henough
  split
  · exact Or.inl rfl
  rename_i it hit
  split
  · exact Or.inl rfl
  rename_i hroom
  rw [Bool.not_eq_true',Bool.not_eq_false] at hinteract havailable hroom
  refine Or.inr ⟨m,it,⟨hinteract,hm,havailable,not_not.mp hlisted,not_not.mp henough,hit,hroom⟩,?_⟩
  unfold taken
  rw [key_of_lookup hit]

/-- A mail stays or goes back; one that is no player's is dropped. -/
theorem handleMailReturnToSender_cases (w : World) (s : Post) (player : UInt32) (mailId : ℕ) :
    handleMailReturnToSender w s player mailId=(s,false) ∨
    ∃ m,getMail w s player mailId=some m ∧ available w m=true ∧ m.sender≠player ∧
      (m.messageType=.normal →
        handleMailReturnToSender w s player mailId=(returned w s player m,true)) := by
  unfold handleMailReturnToSender
  split
  · exact Or.inl rfl
  split
  · exact Or.inl rfl
  rename_i m hm
  split
  · exact Or.inl rfl
  rename_i havailable
  split
  · exact Or.inl rfl
  rename_i hsender
  rw [Bool.not_eq_true',Bool.not_eq_false] at havailable
  rw [not_or,not_or] at hsender
  refine Or.inr ⟨m,hm,havailable,hsender.2.2,fun hnormal => ?_⟩
  unfold returned
  rw [(getMail_eq_some hm).2.2]
  exact if_pos ⟨hnormal,hsender.2.1⟩

theorem frame_fillDraft (player : UInt32) (s : Post) (draft : MailDraft) (items : List Item) :
    (fillDraft player s draft items).1.money=s.money ∧
    (fillDraft player s draft items).1.mails=s.mails ∧
    (fillDraft player s draft items).1.mailId=s.mailId ∧
    (fillDraft player s draft items).1.mItems=s.mItems := by
  fun_induction fillDraft player s draft items with
  | case1 => exact ⟨rfl,rfl,rfl,rfl⟩
  | case2 s draft item rest ih => exact ih

theorem frame_refillDraft (player : UInt32) (s : Post) (draft : MailDraft) (guids : List ℕ) :
    (refillDraft player s draft guids).1.money=s.money ∧
    (refillDraft player s draft guids).1.mails=s.mails ∧
    (refillDraft player s draft guids).1.mailId=s.mailId ∧
    (refillDraft player s draft guids).1.inventory=s.inventory ∧
    (refillDraft player s draft guids).2.COD=draft.COD := by
  induction guids generalizing s draft with
  | nil => exact ⟨rfl,rfl,rfl,rfl,rfl⟩
  | cons guid rest ih =>
    rw [refillDraft]
    cases getMItem s player guid with
    | none => exact ih (removeMItem s player guid) draft
    | some item => exact ih (removeMItem s player guid) (draft.addItem item)

theorem frame_moveItemToInventory (w : World) (s : Post) (player : UInt32) (item : Item) :
    (moveItemToInventory w s player item).money=s.money ∧
    (moveItemToInventory w s player item).mails=s.mails ∧
    (moveItemToInventory w s player item).mailId=s.mailId ∧
    (moveItemToInventory w s player item).mItems=s.mItems := by
  unfold moveItemToInventory
  split
  · exact ⟨rfl,rfl,rfl,rfl⟩
  · exact ⟨rfl,rfl,rfl,rfl⟩

theorem frame_sendMailTo (w : World) (s : Post) (draft : MailDraft) (receiver sender : UInt32)
    (delay : ℕ) :
    (draft.sendMailTo w s receiver sender delay).money=s.money ∧
    (draft.sendMailTo w s receiver sender delay).inventory=s.inventory ∧
    (draft.sendMailTo w s receiver sender delay).mailId=s.mailId+1 ∧
    (draft.sendMailTo w s receiver sender delay).mails=
      ⟨s.mailId,.normal,.default,sender,receiver,draft.items.map Item.guid,w.now+delay,
        draft.money,draft.COD,.unchanged⟩::s.mails := by
  unfold MailDraft.sendMailTo
  dsimp only
  generalize (⟨s.mailId,.normal,.default,sender,receiver,draft.items.map Item.guid,w.now+delay,
    draft.money,draft.COD,.unchanged⟩ : Mail)=m
  have hfold : ∀ (items : List Item) (r : Post),
      (items.foldl (fun s item => addMItem s receiver item) r).money=r.money ∧
      (items.foldl (fun s item => addMItem s receiver item) r).inventory=r.inventory ∧
      (items.foldl (fun s item => addMItem s receiver item) r).mailId=r.mailId ∧
      (items.foldl (fun s item => addMItem s receiver item) r).mails=r.mails := by
    intro items
    induction items with
    | nil => exact fun r => ⟨rfl,rfl,rfl,rfl⟩
    | cons item items ih => exact fun r => ih (addMItem r receiver item)
  exact hfold _ _

end Handlers

/-- The money of the players. -/
def purses (characters : Finset UInt32) (s : Post) : ℕ :=
  ∑ player∈characters,(s.money player).toNat

/-- The money inside the mails. -/
def letters (s : Post) : ℕ := (s.mails.map fun mail => mail.money.toNat).sum

/-- All the money. -/
def total (characters : Finset UInt32) (s : Post) : ℕ := purses characters s+letters s

/-- The mails with, for each id, the COD that its sender asked for and has not got. -/
structure Books where
  post : Post
  asked : ℕ → UInt64

/-- A mail with items asks for its COD until an item is taken. -/
def asks (b : Books) (op : MailOp) : ℕ → UInt64 :=
  match op with
  | .sendMail _ _ itemGUIDs _ COD =>
    Function.update b.asked b.post.mailId (if itemGUIDs.length=0 then 0 else COD)
  | .takeItem _ mailId _ => Function.update b.asked mailId 0
  | _ => b.asked

/-- One step. -/
def stepOn (b : Books) (step : World×MailOp) : Books where
  post := (apply step.1 b.post step.2).1
  asked := if (apply step.1 b.post step.2).2 then asks b step.2 else b.asked

/-- The characters exist, and one of them acts; mails are not deleted. -/
def Existing (characters : Finset UInt32) (step : World×MailOp) : Prop :=
  (∀ player∈characters,receiverExists step.1 player=true) ∧
  match step.2 with
  | .sendMail player receiver _ _ _ => player∈characters ∧ ∀ rc∈receiver,rc∈characters
  | .takeMoney player _ _ => player∈characters
  | .takeItem player _ _ => player∈characters
  | .returnToSender player _ => player∈characters
  | .delete _ _ => False

/-- Money is taken by its amount, and an item out of a mail whose COD, as it was asked for, fits into
31 bits. -/
def Exact (b : Books) (step : World×MailOp) : Prop :=
  match step.2 with
  | .takeMoney player mailId money =>
    step.1.canInteract player=true → ∀ m,getMail step.1 b.post player mailId=some m →
      available step.1 m=true → money≠0 ∨ m.money=0
  | .takeItem player mailId itemId =>
    ∀ m it,Takes step.1 b.post player mailId itemId m it → (b.asked mailId).toNat < 2^31
  | _ => True

/-- A mail between existing characters, with money that there is and the COD that is
asked for. -/
structure Sound (characters : Finset UInt32) (b : Books) (m : Mail) : Prop where
  /-- Its id is used up. -/
  fresh : m.messageID < b.post.mailId
  sender : m.sender∈characters
  /-- The receiver exists. -/
  receiver : m.receiver∈characters
  /-- It is the mail of a player. -/
  normal : m.messageType=.normal
  kept : m.state≠.deleted
  /-- The money can be carried. -/
  letter : m.money ≤ MAX_MONEY_AMOUNT
  asked : m.COD=(b.asked m.messageID).toUInt32.toUInt64

/-- The mails are sound and have ids of their own. -/
structure Balanced (characters : Finset UInt32) (b : Books) : Prop where
  ids : (b.post.mails.map Mail.messageID).Nodup
  sound : ∀ m∈b.post.mails,Sound characters b m
  purse : ∀ player∈characters,b.post.money player ≤ MAX_MONEY_AMOUNT
  unasked : ∀ id,b.post.mailId ≤ id → b.asked id=0

/-- What an accepted operation does to the money. -/
def Pays (characters : Finset UInt32) (b : Books) (step : World×MailOp) (b' : Books) : Prop :=
  match step.2 with
  | .sendMail _ _ itemGUIDs _ _ =>
    total characters b'.post+(postage itemGUIDs).toNat=total characters b.post
  | .takeMoney player mailId _ => ∃ m,getMail step.1 b.post player mailId=some m ∧
      (b'.post.money player).toNat=(b.post.money player).toNat+m.money.toNat ∧
      total characters b'.post=total characters b.post
  | .takeItem player mailId _ => ∃ m,getMail step.1 b.post player mailId=some m ∧
      (b'.post.money player).toNat+(b.asked mailId).toNat=(b.post.money player).toNat ∧
      (b.asked mailId≠0 → ∃ cod∈b'.post.mails,cod.messageID=b.post.mailId ∧
        cod.receiver=m.sender ∧ cod.sender=player ∧ cod.money=b.asked mailId) ∧
      total characters b'.post=total characters b.post
  | .returnToSender _ _ => total characters b'.post=total characters b.post
  | .delete _ _ => False

/-- An operation is refused and changes nothing, or pays what it has to. -/
def Lawful (characters : Finset UInt32) (b : Books) (step : World×MailOp) (b' : Books) : Prop :=
  if (apply step.1 b.post step.2).2 then Pays characters b step b' else b'.post=b.post

section Parts
variable {characters : Finset UInt32} {w : World} {s : Post} {b : Books} {player : UInt32}
  {mailId : ℕ} {m : Mail}

theorem nodup_mailKey (h : (s.mails.map Mail.messageID).Nodup) : (s.mails.map mailKey).Nodup := by
  refine List.Nodup.of_map Prod.snd ?_
  rw [List.map_map]
  exact h

/-- Saving changes no more than the states where no mail is deleted. -/
theorem map_saveMail {β : Type} (f : Mail → β) (hf : ∀ m state,f { m with state := state }=f m)
    (h : ∀ m∈s.mails,m.state≠.deleted) (player : UInt32) :
    (saveMail s player).mails.map f=s.mails.map f := by
  unfold saveMail
  dsimp only
  rw [List.filter_eq_self.mpr fun m hm => by
    simp only [h m hm,decide_false,Bool.and_false,Bool.not_false],List.map_map]
  refine List.map_congr_left fun m _ => ?_
  rw [Function.comp_apply]
  split
  · exact hf m _
  · rfl

theorem mem_saveMail {saved : Mail} (h : saved∈(saveMail s player).mails) :
    ∃ m∈s.mails,saved=m ∨ saved={ m with state := .unchanged } := by
  obtain ⟨m,hm,hsaved⟩ := List.mem_map.mp h
  refine ⟨m,(List.mem_filter.mp hm).1,?_⟩
  split at hsaved
  · exact Or.inr hsaved.symm
  · exact Or.inl hsaved.symm

theorem exists_saveMail (hm : m∈s.mails) (h : m.state≠.deleted) (player : UInt32) :
    ∃ saved∈(saveMail s player).mails,saved=m ∨ saved={ m with state := .unchanged } := by
  refine ⟨_,List.mem_map.mpr ⟨m,List.mem_filter.mpr ⟨hm,?_⟩,rfl⟩,?_⟩
  · simp only [h,decide_false,Bool.and_false,Bool.not_false]
  · split
    · exact Or.inr rfl
    · exact Or.inl rfl

theorem letters_saveMail (h : ∀ m∈s.mails,m.state≠.deleted) (player : UInt32) :
    letters (saveMail s player)=letters s := by
  unfold letters
  rw [map_saveMail _ (fun _ _ => rfl) h]

theorem letters_setMail {changed : Mail} (h : (s.mails.map Mail.messageID).Nodup)
    (hget : lookup mailKey (mailKey m) s.mails=some m) (hkey : mailKey changed=mailKey m) :
    letters (setMail s changed)+m.money.toNat=letters s+changed.money.toNat :=
  sum_replace (fun mail : Mail => mail.money.toNat) (nodup_mailKey h) (hkey ▸ hget)

/-- A COD of less than 31 bits is debited as it is. -/
theorem toInt64_neg_toInt32 {COD : UInt64} (h : COD.toNat < 2^31) :
    (-COD.toUInt32.toInt32).toInt64=-COD.toInt64 := by
  have hword : COD.toUInt32.toInt32.toInt=COD.toNat := by
    have hnat : COD.toUInt32.toNat=COD.toNat := by
      rw [UInt64.toNat_toUInt32]
      exact Nat.mod_eq_of_lt (by omega)
    have hbmod : COD.toUInt32.toInt32.toInt=(COD.toUInt32.toNat : ℤ).bmod (2^32) :=
      BitVec.toInt_eq_toNat_bmod COD.toUInt32.toBitVec
    rw [hbmod,hnat]
    exact Int.bmod_eq_of_le (by omega) (by omega)
  apply Int64.toInt_inj.mp
  rw [Int32.toInt_toInt64,Int32.toInt_neg,Int64.toInt_neg,hword,
    toInt_toInt64_of_lt (by omega : COD.toNat < 2^63),Int.bmod_eq_of_le (by omega) (by omega),
    Int.bmod_eq_of_le (by omega) (by omega)]

theorem Sound.keep {b' : Books} (h : Sound characters b m)
    (hid : b.post.mailId ≤ b'.post.mailId) (hasked : b'.asked m.messageID=b.asked m.messageID) :
    Sound characters b' m where
  fresh := h.fresh.trans_le hid
  sender := h.sender
  receiver := h.receiver
  normal := h.normal
  kept := h.kept
  letter := h.letter
  asked := by rw [hasked]; exact h.asked

/-- A sound mail can be read and saved. -/
theorem Sound.save (h : Sound characters b m) :
    Sound characters b { m with state := .unchanged } where
  fresh := h.fresh
  sender := h.sender
  receiver := h.receiver
  normal := h.normal
  kept := (by rintro ⟨⟩)
  letter := h.letter
  asked := h.asked

theorem sound_saveMail (h : ∀ m∈s.mails,Sound characters b m) :
    ∀ m∈(saveMail s player).mails,Sound characters b m := by
  intro saved hsaved
  obtain ⟨m,hm,rfl | rfl⟩ := mem_saveMail hsaved
  · exact h _ hm
  · exact (h m hm).save

/-- The price of a mail is the sum of the postage and its money. -/
theorem toNat_reqmoney {cost money : UInt64} (h : money ≤ cost+money) :
    (cost+money).toNat=cost.toNat+money.toNat := by
  rw [UInt64.le_iff_toNat_le,UInt64.toNat_add] at h
  have hcost := UInt64.toNat_lt cost
  have hmoney := UInt64.toNat_lt money
  rw [UInt64.toNat_add]
  refine Nat.mod_eq_of_lt ?_
  by_contra hge
  rw [Nat.mod_eq_sub_mod (by omega),Nat.mod_eq_of_lt (by omega)] at h
  omega

/-- A debit leaves no player with too much money. -/
theorem purse_debit {money : UInt32 → UInt64} {amount : UInt64}
    (h : ∀ other∈characters,money other ≤ MAX_MONEY_AMOUNT) (hamount : amount ≤ money player)
    (hsmall : amount.toNat ≤ 2^63) :
    ∀ other∈characters,Function.update money player
      (ModifyMoney (money player) (-amount.toInt64)).1 other ≤ MAX_MONEY_AMOUNT := by
  intro other hother
  rw [ModifyMoney_debit hamount hsmall]
  by_cases heq : other=player
  · subst heq
    rw [Function.update_self,UInt64.le_iff_toNat_le,UInt64.toNat_sub_of_le _ _ hamount]
    exact (Nat.sub_le _ _).trans (UInt64.le_iff_toNat_le.mp (h other hother))
  · rw [Function.update_of_ne heq]
    exact h other hother

/-- A new mail comes in. -/
theorem Balanced.cons {s' : Post} {asked' : ℕ → UInt64} (h : Balanced characters b)
    (hmails : s'.mails=m::b.post.mails) (hid : m.messageID=b.post.mailId)
    (hmailId : s'.mailId=b.post.mailId+1) (hsound : Sound characters ⟨s',asked'⟩ m)
    (hpurse : ∀ player∈characters,s'.money player ≤ MAX_MONEY_AMOUNT)
    (hasked : ∀ id,id≠b.post.mailId → asked' id=b.asked id) :
    Balanced characters ⟨s',asked'⟩ where
  ids := by
    change (s'.mails.map Mail.messageID).Nodup
    rw [hmails,List.map_cons,List.nodup_cons]
    refine ⟨fun hmem => ?_,h.ids⟩
    obtain ⟨old,hold,heq⟩ := List.mem_map.mp hmem
    exact absurd (heq.trans hid) (h.sound old hold).fresh.ne
  sound old hold := by
    change old∈s'.mails at hold
    rw [hmails] at hold
    rcases List.mem_cons.mp hold with rfl | hold
    · exact hsound
    · exact (h.sound old hold).keep (hmailId ▸ Nat.le_succ _)
        (hasked _ (h.sound old hold).fresh.ne)
  purse := hpurse
  unasked id hle := by
    change s'.mailId ≤ id at hle
    rw [hmailId] at hle
    exact (hasked id (by omega)).trans (h.unasked id (by omega))

theorem balanced_sendMail {rc : UInt32} {itemGUIDs : List ℕ} {money COD : UInt64}
    (h : Balanced characters b) (w : World) (items : List Item) (hplayer : player∈characters)
    (hrc : rc∈characters) (hoverflow : money ≤ (postage itemGUIDs).toUInt64+money)
    (henough : (postage itemGUIDs).toUInt64+money ≤ b.post.money player) :
    Balanced characters ⟨sent w b.post player rc itemGUIDs items money COD,
      Function.update b.asked b.post.mailId (if itemGUIDs.length=0 then 0 else COD)⟩ ∧
    total characters (sent w b.post player rc itemGUIDs items money COD)+
      (postage itemGUIDs).toNat=total characters b.post := by
  have hsum := toNat_reqmoney hoverflow
  rw [UInt32.toNat_toUInt64] at hsum
  have hmax := UInt64.le_iff_toNat_le.mp (h.purse player hplayer)
  have hle := UInt64.le_iff_toNat_le.mp henough
  have hsmall : ((postage itemGUIDs).toUInt64+money).toNat ≤ 2^63 := by
    rw [MAX_MONEY_AMOUNT_toNat] at hmax
    omega
  unfold sent
  generalize (if itemGUIDs.length=0 then 0 else COD)=COD'
  extract_lets paid filled
  obtain ⟨hmoney,hmails,hmailId,-⟩ := frame_fillDraft player paid .new items
  obtain ⟨hmoney',-,hmailId',hmails'⟩ := frame_sendMailTo w filled.1
    ((filled.2.addMoney money).addCOD COD'.toUInt32) rc player (deliver_delay w player rc itemGUIDs)
  generalize MailDraft.sendMailTo w filled.1 ((filled.2.addMoney money).addCOD COD'.toUInt32) rc
    player (deliver_delay w player rc itemGUIDs)=s' at *
  rw [hmoney] at hmoney'
  rw [hmailId] at hmailId'
  rw [hmails,hmailId] at hmails'
  refine ⟨h.cons hmails' rfl hmailId' ⟨?_,hplayer,hrc,rfl,(by rintro ⟨⟩),?_,?_⟩ ?_ fun id hne => ?_,?_⟩
  · exact hmailId'.symm ▸ Nat.lt_succ_self _
  · change money ≤ _
    rw [UInt64.le_iff_toNat_le]
    omega
  · exact congrArg (fun COD : UInt64 => COD.toUInt32.toUInt64)
      (Function.update_self b.post.mailId COD' b.asked).symm
  · rw [hmoney']
    exact purse_debit h.purse henough hsmall
  · exact Function.update_of_ne hne _ _
  have hpurses := sum_debit hplayer henough hsmall
  have hletters : letters s'=money.toNat+letters b.post := by
    unfold letters
    rw [hmails']
    rfl
  unfold total purses
  rw [hletters,hmoney']
  change (∑ other∈characters,(Function.update b.post.money player _ other).toNat)+_+_=_
  omega

/-- The books see the mails, their ids and the money only. -/
theorem Balanced.congr {s s' : Post} {asked : ℕ → UInt64} (h : Balanced characters ⟨s,asked⟩)
    (hmails : s'.mails=s.mails) (hmailId : s'.mailId=s.mailId)
    (hpurse : ∀ player∈characters,s'.money player ≤ MAX_MONEY_AMOUNT) :
    Balanced characters ⟨s',asked⟩ where
  ids := by
    change (s'.mails.map Mail.messageID).Nodup
    rw [hmails]
    exact h.ids
  sound m hm := by
    change m∈s'.mails at hm
    rw [hmails] at hm
    exact (h.sound m hm).keep hmailId.ge rfl
  purse := hpurse
  unasked id hle := h.unasked id (hmailId.symm.le.trans hle)

theorem Balanced.change (h : Balanced characters b) (asked' : ℕ → UInt64) (player : UInt32)
    (changed : Mail) (hget : lookup mailKey (mailKey m) b.post.mails=some m)
    (hkey : mailKey changed=mailKey m) (hsound : Sound characters ⟨b.post,asked'⟩ changed)
    (hasked : ∀ id,id≠m.messageID → asked' id=b.asked id) :
    Balanced characters ⟨saveMail (setMail b.post changed) player,asked'⟩ ∧
    letters (saveMail (setMail b.post changed) player)+m.money.toNat=
      letters b.post+changed.money.toNat := by
  have hid : changed.messageID=m.messageID := (Prod.mk.inj hkey).2
  have hids : (setMail b.post changed).mails.map Mail.messageID=b.post.mails.map Mail.messageID :=
    map_replace Mail.messageID (nodup_mailKey h.ids) (hkey.symm ▸ hget) hid
  have hsounds : ∀ other∈(setMail b.post changed).mails,Sound characters ⟨b.post,asked'⟩ other := by
    intro other hother
    by_cases heq : other=changed
    · exact heq ▸ hsound
    have hold := (mem_of_mem_replace hother).resolve_left heq
    refine (h.sound other hold).keep le_rfl (hasked _ fun hsame => heq ?_)
    -- the mail of that id is the one that has been written to
    have hnodup : ((setMail b.post changed).mails.map Mail.messageID).Nodup := hids ▸ h.ids
    refine List.inj_on_of_nodup_map hnodup hother ?_ (hsame.trans hid.symm)
    exact (replace_perm (nodup_mailKey h.ids) (hkey ▸ hget)).mem_iff.mpr List.mem_cons_self
  have hkept : ∀ other∈(setMail b.post changed).mails,other.state≠.deleted :=
    fun other hother => (hsounds other hother).kept
  refine ⟨⟨?_,fun other hother => ?_,h.purse,fun id hle => ?_⟩,?_⟩
  · exact (map_saveMail Mail.messageID (fun _ _ => rfl) hkept player).symm ▸ hids.symm ▸ h.ids
  · exact (sound_saveMail hsounds other hother).keep le_rfl rfl
  · exact (hasked id ((h.sound m (mem_of_lookup hget)).fresh.trans_le hle).ne').trans
      (h.unasked id hle)
  · rw [letters_saveMail hkept]
    exact letters_setMail h.ids hget hkey

theorem balanced_takeMoney {money : UInt64} (h : Balanced characters b)
    (hplayer : player∈characters) (hget : lookup mailKey (mailKey m) b.post.mails=some m)
    (hamount : m.money=money)
    (hmodified : (ModifyMoney (b.post.money player) money.toInt64).2=true) :
    Balanced characters ⟨emptied b.post player m money,b.asked⟩ ∧
    ((emptied b.post player m money).money player).toNat=
      (b.post.money player).toNat+m.money.toNat ∧
    total characters (emptied b.post player m money)=total characters b.post := by
  subst hamount
  have hsound := h.sound m (mem_of_lookup hget)
  have hpurse := UInt64.le_iff_toNat_le.mp (h.purse player hplayer)
  have hletter := UInt64.le_iff_toNat_le.mp hsound.letter
  have hmax := MAX_MONEY_AMOUNT_toNat
  have hcredit : ModifyMoney (b.post.money player) m.money.toInt64=_ :=
    ModifyMoney_credit hsound.letter
  rw [hcredit] at hmodified
  split at hmodified
  · rename_i hroom
    rw [if_pos hroom] at hcredit
    have hbalance : (b.post.money player+m.money).toNat=
        (b.post.money player).toNat+m.money.toNat := toNat_add_of_lt (by omega)
    have hfits : (b.post.money player).toNat+m.money.toNat ≤ MAX_MONEY_AMOUNT.toNat := by
      rcases hroom with hzero | hroom
      · rw [hzero]
        exact hpurse
      · exact hroom.le
    have hcredited : Balanced characters ⟨{ b.post with
        money := Function.update b.post.money player (b.post.money player+m.money) },b.asked⟩ := by
      refine h.congr (s := b.post) rfl rfl fun other hother => ?_
      change Function.update b.post.money player (b.post.money player+m.money) other ≤ _
      by_cases heq : other=player
      · subst heq
        rw [Function.update_self,UInt64.le_iff_toNat_le,hbalance]
        exact hfits
      · rw [Function.update_of_ne heq]
        exact h.purse other hother
    obtain ⟨hbalanced,hletters⟩ := hcredited.change b.asked player
      { m with money := 0, state := .changed } hget rfl
      ⟨hsound.fresh,hsound.sender,hsound.receiver,hsound.normal,(by rintro ⟨⟩),UInt64.zero_le,
        hsound.asked⟩ fun _ _ => rfl
    unfold emptied
    rw [hcredit]
    refine ⟨hbalanced,?_,?_⟩
    · change (Function.update b.post.money player (b.post.money player+m.money) player).toNat=_
      rw [Function.update_self,hbalance]
    have hpurses := sum_update hplayer b.post.money (b.post.money player+m.money)
    unfold total
    dsimp only at hletters ⊢
    change (∑ other∈characters,(Function.update b.post.money player _ other).toNat)+_=_
    unfold purses
    change letters _+_=letters b.post+0 at hletters
    omega
  · exact absurd hmodified Bool.false_ne_true

theorem balanced_payCOD (h : Balanced characters b) (hplayer : player∈characters)
    (hm : m∈b.post.mails) (hreceiver : m.receiver=player)
    (hexists : receiverExists w m.sender=true) (henough : m.COD ≤ b.post.money player)
    (hsmall : m.COD.toNat < 2^31) :
    Balanced characters ⟨payCOD w b.post player m,b.asked⟩ ∧
    ((payCOD w b.post player m).money player).toNat+m.COD.toNat=(b.post.money player).toNat ∧
    total characters (payCOD w b.post player m)=total characters b.post ∧
    (∀ old∈b.post.mails,
      lookup mailKey (mailKey old) (payCOD w b.post player m).mails=
        lookup mailKey (mailKey old) b.post.mails) ∧
    (m.COD≠0 → ∃ cod∈(payCOD w b.post player m).mails,cod.messageID=b.post.mailId ∧
      cod.receiver=m.sender ∧ cod.sender=player ∧ cod.money=m.COD) := by
  have hsound := h.sound m hm
  unfold payCOD
  by_cases hpos : 0 < m.COD
  · rw [if_pos hpos,if_pos hexists]
    obtain ⟨hmoney,-,hmailId,hmails⟩ :=
      frame_sendMailTo w b.post (MailDraft.new.addMoney m.COD) m.sender m.receiver 0
    generalize MailDraft.sendMailTo w b.post (MailDraft.new.addMoney m.COD) m.sender m.receiver 0=
      s' at *
    dsimp only
    rw [toInt64_neg_toInt32 hsmall,hmoney]
    have hletters : letters s'=m.COD.toNat+letters b.post := by
      unfold letters
      rw [hmails]
      rfl
    refine ⟨?_,?_,?_,fun old hold => ?_,fun _ => ?_⟩
    · refine h.cons hmails rfl hmailId ⟨?_,hsound.receiver,hsound.sender,rfl,(by rintro ⟨⟩),?_,?_⟩ ?_
        fun _ _ => rfl
      · exact hmailId.symm ▸ Nat.lt_succ_self _
      · exact UInt64.le_trans henough (h.purse player hplayer)
      · change (0 : UInt64)=(b.asked b.post.mailId).toUInt32.toUInt64
        rw [h.unasked _ le_rfl]
        rfl
      · exact purse_debit h.purse henough (by omega)
    · rw [Function.update_self,ModifyMoney_debit henough (by omega),
        UInt64.toNat_sub_of_le _ _ henough]
      exact Nat.sub_add_cancel (UInt64.le_iff_toNat_le.mp henough)
    · have hpurses := sum_debit hplayer henough (by omega)
      change (∑ other∈characters,(Function.update b.post.money player _ other).toNat)+letters s'=_
      unfold total purses
      omega
    · rw [hmails]
      refine List.find?_cons_of_neg ?_
      rw [decide_eq_true_eq]
      exact fun hkey => (h.sound old hold).fresh.ne (Prod.mk.inj hkey).2.symm
    · rw [hmails]
      exact ⟨_,List.mem_cons_self,rfl,rfl,hreceiver,rfl⟩
  · have hzero : m.COD=0 := UInt64.toNat_inj.mp
      (Nat.eq_zero_of_not_pos fun hlt => hpos (UInt64.lt_iff_toNat_lt.mpr hlt))
    rw [if_neg hpos,hzero]
    exact ⟨h,rfl,rfl,fun _ _ => rfl,fun hne => absurd rfl hne⟩

theorem balanced_takeItem (h : Balanced characters b) (hplayer : player∈characters)
    (hget : lookup mailKey (mailKey m) b.post.mails=some m) (hreceiver : m.receiver=player)
    (hexists : receiverExists w m.sender=true) (henough : m.COD ≤ b.post.money player)
    (hsmall : (b.asked m.messageID).toNat < 2^31) (it : Item) :
    Balanced characters
      ⟨taken w b.post player m it,Function.update b.asked m.messageID 0⟩ ∧
    ((taken w b.post player m it).money player).toNat+(b.asked m.messageID).toNat=
      (b.post.money player).toNat ∧
    (b.asked m.messageID≠0 → ∃ cod∈(taken w b.post player m it).mails,
      cod.messageID=b.post.mailId ∧ cod.receiver=m.sender ∧ cod.sender=player ∧
      cod.money=b.asked m.messageID) ∧
    total characters (taken w b.post player m it)=total characters b.post := by
  have hmem := mem_of_lookup hget
  have hsound := h.sound m hmem
  have hasked : m.COD=b.asked m.messageID := by
    rw [hsound.asked]
    refine UInt64.toNat_inj.mp ?_
    rw [UInt32.toNat_toUInt64,UInt64.toNat_toUInt32]
    exact Nat.mod_eq_of_lt (hsmall.trans (by decide))
  obtain ⟨hpaid,hmoney,htotal,hlookup,hcod⟩ :=
    balanced_payCOD h hplayer hmem hreceiver hexists henough (hasked ▸ hsmall)
  unfold taken
  rw [← hasked]
  have hpaidOff : (Function.update b.asked m.messageID 0 m.messageID).toUInt32.toUInt64=0 := by
    rw [Function.update_self]
    rfl
  generalize payCOD w b.post player m=paid at *
  have hget' : lookup mailKey (mailKey m) paid.mails=some m := (hlookup m hmem).trans hget
  have hsound' := hpaid.sound m (mem_of_lookup hget')
  obtain ⟨hbalanced,hletters⟩ := hpaid.change (Function.update b.asked m.messageID 0)
    player { m with items := m.items.erase it.guid, COD := 0, state := .changed } hget' rfl
    ⟨hsound'.fresh,hsound.sender,hsound.receiver,hsound.normal,(by rintro ⟨⟩),hsound.letter,
      hpaidOff.symm⟩
    fun id hne => Function.update_of_ne hne _ _
  generalize hchanged : setMail paid
    { m with items := m.items.erase it.guid, COD := 0, state := .changed }=changed at *
  obtain ⟨hmoney',hmails',hmailId',-⟩ :=
    frame_moveItemToInventory w (removeMItem changed player it.guid) player it
  have hmails : (saveMail (moveItemToInventory w (removeMItem changed player it.guid) player it)
      player).mails=(saveMail changed player).mails := by
    unfold saveMail
    dsimp only
    rw [hmails']
    rfl
  have hsame : ∀ other,(saveMail (moveItemToInventory w (removeMItem changed player it.guid) player
      it) player).money other=paid.money other := by
    intro other
    rw [← hchanged] at hmoney' ⊢
    exact congrFun hmoney' other
  refine ⟨hbalanced.congr hmails hmailId' fun other hother => ?_,?_,fun hne => ?_,?_⟩
  · rw [hsame]
    exact hpaid.purse other hother
  · rw [hsame]
    exact hmoney
  · obtain ⟨cod,hmem',hid,hfields⟩ := hcod hne
    have hother : mailKey cod≠mailKey m := fun hkey =>
      hsound.fresh.ne ((Prod.mk.inj hkey).2.symm.trans hid)
    have hlisted : cod∈changed.mails := by
      rw [← hchanged]
      exact mem_replace_of_ne hmem' hother
    obtain ⟨saved,hsaved,hcases⟩ := exists_saveMail hlisted (hpaid.sound cod hmem').kept player
    refine ⟨saved,hmails ▸ hsaved,?_⟩
    rcases hcases with rfl | rfl
    · exact ⟨hid,hfields⟩
    · exact ⟨hid,hfields⟩
  · change letters (saveMail changed player)+m.money.toNat=letters paid+m.money.toNat at hletters
    unfold total purses letters at *
    simp only [hsame,hmails]
    omega

/-- What goes back to a sender who exists is a new mail. -/
theorem sendReturnToSender_eq {receiver_guid : UInt32} (s : Post) (draft : MailDraft)
    (sender_acc sender_guid : UInt32) (hexists : receiverExists w receiver_guid=true) :
    ∃ delay,draft.sendReturnToSender w s sender_acc sender_guid receiver_guid=
      draft.sendMailTo w s receiver_guid sender_guid delay := by
  unfold MailDraft.sendReturnToSender
  extract_lets rc_account
  refine ⟨_,if_neg ?_⟩
  unfold receiverExists at hexists
  rw [Bool.or_eq_true,bne_iff_ne] at hexists
  rw [Bool.and_eq_true,Bool.not_eq_true',decide_eq_true_eq,not_and]
  intro hoffline
  have haccount : rc_account=w.account receiver_guid := if_neg (by rw [hoffline]; rintro ⟨⟩)
  rw [haccount]
  exact hexists.resolve_left (by rw [hoffline]; rintro ⟨⟩)

/-- A mail that goes back takes its money with it. -/
theorem balanced_return (h : Balanced characters b)
    (hget : lookup mailKey (mailKey m) b.post.mails=some m) (hreceiver : m.receiver=player)
    (hexists : receiverExists w m.sender=true) :
    Balanced characters ⟨returned w b.post player m,b.asked⟩ ∧
    total characters (returned w b.post player m)=total characters b.post := by
  have hsound := h.sound m (mem_of_lookup hget)
  have hkey : (player,m.messageID)=mailKey m := by
    rw [← hreceiver]
    rfl
  have hremoved : Balanced characters ⟨removeMail b.post player m.messageID,b.asked⟩ :=
    ⟨h.ids.sublist (List.filter_sublist.map _),
      fun other hother => (h.sound other (mem_remove.mp hother).1).keep le_rfl rfl,h.purse,h.unasked⟩
  have hletters : letters (removeMail b.post player m.messageID)+m.money.toNat=letters b.post := by
    unfold removeMail
    rw [hkey]
    exact sum_remove (fun mail : Mail => mail.money.toNat) (nodup_mailKey h.ids) hget
  have hmoney : (removeMail b.post player m.messageID).money=b.post.money := rfl
  unfold returned
  generalize removeMail b.post player m.messageID=removed at *
  obtain ⟨hmoney₁,hmails₁,hmailId₁,-,hCOD⟩ := frame_refillDraft player removed .new m.items
  generalize refillDraft player removed .new m.items=refilled at *
  dsimp only
  obtain ⟨delay,hsent⟩ := sendReturnToSender_eq refilled.1 (refilled.2.addMoney m.money)
    (w.account player) m.receiver hexists
  obtain ⟨hmoney₂,-,hmailId₂,hmails₂⟩ :=
    frame_sendMailTo w refilled.1 (refilled.2.addMoney m.money) m.sender m.receiver delay
  rw [hsent]
  generalize MailDraft.sendMailTo w refilled.1 (refilled.2.addMoney m.money) m.sender m.receiver
    delay=s' at *
  rw [hmails₁,hmailId₁] at hmails₂
  rw [hmoney₁,hmoney] at hmoney₂
  rw [hmailId₁] at hmailId₂
  have hsound' : removed.mailId < s'.mailId := hmailId₂.symm ▸ Nat.lt_succ_self _
  have hzero : (refilled.2.addMoney m.money).COD=0 := hCOD
  rw [hzero] at hmails₂
  refine ⟨hremoved.cons hmails₂ rfl hmailId₂ ⟨hsound',hsound.receiver,hsound.sender,rfl,(by rintro ⟨⟩),
    hsound.letter,?_⟩ ?_ fun _ _ => rfl,?_⟩
  · change (0 : UInt64)=(b.asked removed.mailId).toUInt32.toUInt64
    rw [hremoved.unasked _ le_rfl]
    rfl
  · rw [hmoney₂]
    exact h.purse
  have hletters' : letters s'=m.money.toNat+letters removed := by
    unfold letters
    rw [hmails₂]
    rfl
  unfold total purses
  rw [hmoney₂]
  omega

end Parts

section Runs
variable {characters : Finset UInt32} {b : Books}

/-- An operation that is refused changes nothing. -/
theorem refused_step {step : World×MailOp} (h : Balanced characters b)
    (hrefused : apply step.1 b.post step.2=(b.post,false)) :
    Balanced characters (stepOn b step) ∧ Lawful characters b step (stepOn b step) := by
  unfold stepOn Lawful
  rw [hrefused]
  exact ⟨h,rfl⟩

/-- An operation that goes through. -/
theorem accepted_step {step : World×MailOp} {s' : Post}
    (haccepted : apply step.1 b.post step.2=(s',true))
    (h : Balanced characters ⟨s',asks b step.2⟩)
    (hpays : Pays characters b step ⟨s',asks b step.2⟩) :
    Balanced characters (stepOn b step) ∧ Lawful characters b step (stepOn b step) := by
  unfold stepOn Lawful
  rw [haccepted]
  exact ⟨h,hpays⟩

theorem Balanced.step {step : World×MailOp} (h : Balanced characters b)
    (hexisting : Existing characters step) (hexact : Exact b step) :
    Balanced characters (stepOn b step) ∧ Lawful characters b step (stepOn b step) := by
  obtain ⟨w,op⟩ := step
  obtain ⟨hexists,hop⟩ := hexisting
  cases op with
  | sendMail player receiver itemGUIDs money COD =>
    rcases handleSendMail_cases w b.post player receiver itemGUIDs money COD with
      hrefused | ⟨rc,items,rfl,-,-,hoverflow,henough,-,hsent⟩
    · exact refused_step h hrefused
    · obtain ⟨hbalanced,htotal⟩ := balanced_sendMail h w items hop.1
        (hop.2 rc rfl) hoverflow henough
      exact accepted_step hsent hbalanced htotal
  | takeMoney player mailId money =>
    rcases handleMailTakeMoney_cases w b.post player mailId money with
      hrefused | ⟨m,hinteract,hm,havailable,hstated,hmodified,htaken⟩
    · exact refused_step h hrefused
    have hamount : m.money=money := by
      rcases hstated with hzero | hstated
      · rw [hzero]
        exact (hexact hinteract m hm havailable).resolve_left (not_not.mpr hzero)
      · exact hstated
    obtain ⟨hbalanced,hmoney,htotal⟩ :=
      balanced_takeMoney h hop (getMail_eq_some hm).1 hamount hmodified
    exact accepted_step htaken hbalanced ⟨m,hm,hmoney,htotal⟩
  | takeItem player mailId itemId =>
    rcases handleMailTakeItem_cases w b.post player mailId itemId with
      hrefused | ⟨m,it,htakes,htaken⟩
    · exact refused_step h hrefused
    have hsmall := hexact m it htakes
    obtain ⟨hget,hreceiver,rfl⟩ := getMail_eq_some htakes.mail
    have hsender := (h.sound m (mem_of_lookup hget)).sender
    obtain ⟨hbalanced,hmoney,hcod,htotal⟩ :=
      balanced_takeItem h hop hget hreceiver (hexists _ hsender) htakes.enough hsmall it
    exact accepted_step htaken hbalanced ⟨m,htakes.mail,hmoney,hcod,htotal⟩
  | returnToSender player mailId =>
    rcases handleMailReturnToSender_cases w b.post player mailId with
      hrefused | ⟨m,hm,-,-,hreturned⟩
    · exact refused_step h hrefused
    obtain ⟨hget,hreceiver,-⟩ := getMail_eq_some hm
    have hsound := h.sound m (mem_of_lookup hget)
    obtain ⟨hbalanced,htotal⟩ := balanced_return h hget hreceiver (hexists _ hsound.sender)
    exact accepted_step (hreturned hsound.normal) hbalanced htotal
  | delete player mailId => exact absurd hop id

/-- In every run of existing characters in which money is taken by its amount and items out of mails
whose CODs fit into 31 bits, the postage is all that the money loses. -/
theorem mail_money (characters : Finset UInt32) (b : Books) (before after : List (World×MailOp))
    (step : World×MailOp) (h : Balanced characters b)
    (hexisting : Meets stepOn (fun _ => Existing characters) b (before++step::after))
    (hexact : Meets stepOn Exact b (before++step::after)) :
    Lawful characters (run stepOn b before) step (stepOn (run stepOn b before) step) := by
  have hrun : ∀ (steps : List (World×MailOp)) (b : Books),Balanced characters b →
      Meets stepOn (fun _ => Existing characters) b steps → Meets stepOn Exact b steps →
      Balanced characters (run stepOn b steps) := by
    intro steps
    induction steps with
    | nil => exact fun b h _ _ => h
    | cons step steps ih =>
      rintro b h ⟨hexisting,hexistings⟩ ⟨hexact,hexacts⟩
      exact ih (stepOn b step) (h.step hexisting hexact).1 hexistings hexacts
  obtain ⟨hexisting₁,hexisting₂,-⟩ := meets_append.mp hexisting
  obtain ⟨hexact₁,hexact₂,-⟩ := meets_append.mp hexact
  exact ((hrun before b h hexisting₁ hexact₁).step hexisting₂ hexact₂).2

end Runs

/-- Everybody is online, and nothing stands in the way of a mail. -/
def openWorld : World where
  online := fun _ => true
  account := fun player => player
  level := fun _ => 80
  team := fun _ => 0
  guildMail := fun _ _ => false
  mailLevelReq := 1
  twoSideMail := true
  mailDeliveryDelay := 0
  now := 0
  canInteract := fun _ => true
  mailsLoaded := fun _ => true
  canStoreItem := fun _ _ => true
  merges := fun _ _ => false

/-- Two players, one of them with an item. -/
def twoPlayers : Books where
  post := {
    money := fun _ => 5000000000
    inventory := [(1,⟨7,false,true,false,false,false,0,false,false⟩)]
    mails := []
    mItems := fun _ => []
    mailId := 1 }
  asked := fun _ => 0

/-- The item is sent for a COD. -/
def sendFor (COD : UInt64) : World×MailOp := (openWorld,.sendMail 1 (some 2) [7] 0 COD)

/-- The item is taken. -/
def takeIt : World×MailOp := (openWorld,.takeItem 2 1 7)

theorem balanced_twoPlayers : Balanced {1,2} twoPlayers :=
  ⟨List.nodup_nil,(by rintro _ ⟨⟩),
    fun _ _ => (by decide : (5000000000 : UInt64) ≤ MAX_MONEY_AMOUNT),fun _ _ => rfl⟩

theorem existing_sendFor (COD : UInt64) : Existing {1,2} (sendFor COD) := by
  refine ⟨fun _ _ => rfl,by decide,fun rc hrc => ?_⟩
  obtain rfl := Option.some.inj hrc
  decide

theorem existing_takeIt : Existing {1,2} takeIt :=
  ⟨fun _ _ => rfl,(by decide : (2 : UInt32)∈({1,2} : Finset UInt32))⟩

/-- A COD of 1000 is paid. -/
theorem mail_money_cod :
    Lawful {1,2} (stepOn twoPlayers (sendFor 1000)) takeIt
      (stepOn (stepOn twoPlayers (sendFor 1000)) takeIt) :=
  mail_money {1,2} twoPlayers [sendFor 1000] [] takeIt balanced_twoPlayers
    ⟨existing_sendFor _,existing_takeIt,trivial⟩
    ⟨trivial,fun _ _ _ => (by decide : (1000 : UInt64).toNat < 2^31),trivial⟩

/-- Money is sent. -/
def sendMoney : World×MailOp := (openWorld,.sendMail 1 (some 2) [] 100 0)

/-- The money is taken by an amount of nothing. -/
def takeNothing : World×MailOp := (openWorld,.takeMoney 2 1 0)

theorem existing_sendMoney : Existing {1,2} sendMoney := by
  refine ⟨fun _ _ => rfl,by decide,fun rc hrc => ?_⟩
  obtain rfl := Option.some.inj hrc
  decide

theorem existing_takeNothing : Existing {1,2} takeNothing :=
  ⟨fun _ _ => rfl,(by decide : (2 : UInt32)∈({1,2} : Finset UInt32))⟩

/-- A COD of 2^32 is not paid, one above 2^31 is paid to the taker as well, and money
that is taken by an amount of nothing is gone. -/
theorem mail_loses_money :
    Balanced {1,2} twoPlayers ∧
    ∀ steps∈[(sendFor (2^32),takeIt),(sendFor (2^31+1),takeIt),(sendMoney,takeNothing)],
      Meets stepOn (fun _ => Existing {1,2}) twoPlayers [steps.1,steps.2] ∧
      ¬Lawful {1,2} (stepOn twoPlayers steps.1) steps.2
        (stepOn (stepOn twoPlayers steps.1) steps.2) := by
  have hcod : ∀ COD : UInt64,
      (apply takeIt.1 (stepOn twoPlayers (sendFor COD)).post takeIt.2).2=true →
      ((stepOn (stepOn twoPlayers (sendFor COD)) takeIt).post.money 2).toNat+
        ((stepOn twoPlayers (sendFor COD)).asked 1).toNat≠
        ((stepOn twoPlayers (sendFor COD)).post.money 2).toNat →
      ¬Lawful {1,2} (stepOn twoPlayers (sendFor COD)) takeIt
        (stepOn (stepOn twoPlayers (sendFor COD)) takeIt) := by
    intro COD haccepted hne h
    unfold Lawful at h
    rw [if_pos haccepted] at h
    obtain ⟨m,-,hmoney,-⟩ := h
    exact hne hmoney
  refine ⟨balanced_twoPlayers,fun steps hsteps => ?_⟩
  simp only [List.mem_cons,List.not_mem_nil,or_false] at hsteps
  rcases hsteps with rfl | rfl | rfl
  · exact ⟨⟨existing_sendFor _,existing_takeIt,trivial⟩,hcod _ (by decide) (by decide)⟩
  · exact ⟨⟨existing_sendFor _,existing_takeIt,trivial⟩,hcod _ (by decide) (by decide)⟩
  refine ⟨⟨existing_sendMoney,existing_takeNothing,trivial⟩,fun h => ?_⟩
  unfold Lawful at h
  rw [if_pos (by decide)] at h
  obtain ⟨m,-,-,htotal⟩ := h
  revert htotal
  decide

end Projectnelth.MailMoney
