import Mathlib
import Projectnelth.GuildBankItemModel
import Projectnelth.RunInvariant

/-!
# What a member takes out of the tabs of a guild bank

A move goes between two tabs or between a tab and the player; with a stack in the way it is an
exchange. It asks for the right to store at its destination and for withdrawals that are left at
its source, the exchange for both the other way round too, and what leaves a tab is counted. A
member has withdrawals left whether or not its rank may see the tab: the test compares the right
to see with a constant that it never has. The inventory of a player is a parameter.
-/

namespace Projectnelth.GuildBankWithdrawals

open GuildRankModel GuildBankItemModel RunInvariant

/-- What a move calls of a player, whose items are objects as those of the bank are. -/
structure Inventory (σ : Type) where
  getItemByPos : σ → Place → Option ℕ
  isNotEmptyBag : σ → ℕ → Bool
  canBeTraded : σ → ℕ → Bool
  /-- `CanStoreItem`: the places, or the error. -/
  canStoreItem : σ → (ℕ → Item) → Place → ℕ → Bool → Except InventoryResult (List ItemPosCount)
  moveItemFromInventory : σ → Place → σ
  moveItemToInventory : σ → (ℕ → Item) → List ItemPosCount → ℕ → σ×(ℕ → Item)

/-- A stack has gone from a tab, or for `none` from the player, to another one. -/
structure Transfer where
  player : UInt32
  src : Option ℕ
  dest : Option ℕ

/-- The bank, the players, and what was moved, as the bank's event log has it. -/
structure State (σ : Type) where
  bank : Bank
  inventory : UInt32 → σ
  log : List Transfer

/-- `MoveItemData` of a tab or of the player. -/
structure MoveItemData extends BankMoveItemData where
  isBank : Bool

/-- The tab, or `none` for the player. -/
def MoveItemData.container (d : MoveItemData) : Option ℕ := if d.isBank then some d.place.1 else none

section Moves

variable {σ : Type} (e : Inventory σ) (s : State σ) (player : UInt32)

def initItem (d : MoveItemData) : MoveItemData :=
  if d.isBank then { d with item := getItem s.bank d.place }
  else
    let item := e.getItemByPos (s.inventory player) d.place
    { d with item := item.filter fun item =>
        !e.isNotEmptyBag (s.inventory player) item && e.canBeTraded (s.inventory player) item }

def hasStoreRights (b : Bank) (d other : MoveItemData) : Bool :=
  if d.isBank then
    if other.isBank ∧ other.place.1=d.place.1 then true
    else memberHasTabRights b player d.place.1 GUILD_BANK_RIGHT_DEPOSIT_ITEM
  else true

def hasWithdrawRights (b : Bank) (d other : MoveItemData) : Bool :=
  if d.isBank then
    if other.isBank ∧ other.place.1=d.place.1 then true
    else match getMember b.guild player with
      | some member => getMemberRemainingSlots b member d.place.1 != 0
      | none => false
  else true

def canStore (d : MoveItemData) (item : ℕ) (swap : Bool) :
    Except InventoryResult (List ItemPosCount) :=
  if d.isBank then GuildBankItemModel.canStore s.bank d.toBankMoveItemData item swap
  else e.canStoreItem (s.inventory player) s.bank.objects d.place item swap

/-- A stack is made smaller or taken out of its slot. -/
def takeItem (b : Bank) (d : BankMoveItemData) (splitedAmount : UInt32) : Bank :=
  match d.item with
  | some item =>
    if splitedAmount≠0 then setCount b item ((b.objects item).count-splitedAmount)
    else setItem b d.place none
  | none => b

/-- What leaves a tab is counted. -/
def countWithdrawal (b : Bank) (d other : MoveItemData) : Bank :=
  if other.isBank=false ∨ other.place.1≠d.place.1 then updateMemberWithdrawSlots b player d.place.1
  else b

def removeItem (d other : MoveItemData) (splitedAmount : UInt32) : State σ :=
  let taken := takeItem s.bank d.toBankMoveItemData splitedAmount
  let left := e.moveItemFromInventory (s.inventory player) d.place
  if d.isBank then { s with bank := countWithdrawal player taken d other }
  else if splitedAmount≠0 then { s with bank := taken }
  else { s with inventory := Function.update s.inventory player left }

def storeItem (d : MoveItemData) (item : ℕ) (vec : List ItemPosCount) : State σ :=
  if d.isBank then { s with bank := GuildBankItemModel.storeItem s.bank d.place.1 item vec }
  else
    let stored := e.moveItemToInventory (s.inventory player) s.bank.objects vec item
    { s with bank := { s.bank with objects := stored.2 },
             inventory := Function.update s.inventory player stored.1 }

def logBankEvent (d from' : MoveItemData) : State σ :=
  { s with log := s.log++[⟨player,from'.container,d.container⟩] }

def doItemsMove (src dest : MoveItemData) (splitedAmount : UInt32) : State σ×Bool :=
  match if splitedAmount≠0 then src.clonedItem else src.item with
  | none => (s,false)
  | some srcItem =>
    match canStore e s player dest srcItem dest.item.isSome with
    | .error _ => (s,false)
    | .ok destVec =>
      match dest.item with
      | none =>
        let s := logBankEvent s player dest src
        let s := removeItem e s player src dest splitedAmount
        (storeItem e s player dest srcItem destVec,true)
      | some destItem =>
        match canStore e s player src destItem true with
        | .error _ => (s,false)
        | .ok srcVec =>
          let s := logBankEvent (logBankEvent s player dest src) player src dest
          let s := removeItem e (removeItem e s player src dest splitedAmount) player dest src 0
          (storeItem e (storeItem e s player dest srcItem destVec) player src destItem srcVec,true)

/-- The second try of `_MoveItems`, to swap the items. -/
def swapMove (src dest : MoveItemData) : State σ×Bool :=
  let dest := initItem e s player dest
  if dest.item.isNone then (s,false)
  else if !hasStoreRights player s.bank src dest then (s,false)
  else if !hasWithdrawRights player s.bank dest src then (s,false)
  else doItemsMove e s player src dest 0

/-- `_MoveItems`; the flag says that items have been moved. -/
def moveItems (src dest : MoveItemData) (splitedAmount : UInt32) : State σ×Bool :=
  let src := initItem e s player src
  match src.item with
  | none => (s,false)
  | some item =>
    if (s.bank.objects item).count < splitedAmount then (s,false)
    else
      let splited := if splitedAmount=(s.bank.objects item).count then 0 else splitedAmount
      if !hasStoreRights player s.bank dest src then (s,false)
      else if !hasWithdrawRights player s.bank src dest then (s,false)
      else if splited≠0 then
        match cloneItem s.bank item splited with
        | none => (s,false)
        | some (cloned,newItem) =>
          doItemsMove e { s with bank := cloned } player { src with clonedItem := some newItem }
            dest splited
      else
        match doItemsMove e s player src dest 0 with
        | (moved,true) => (moved,true)
        | (same,false) => swapMove e same player src dest

/-- A tab as one end of a move. -/
def bankData (place : Place) : MoveItemData := ⟨⟨place,none,none⟩,true⟩

/-- The player as one end of a move. -/
def charData (place : Place) : MoveItemData := ⟨⟨place,none,none⟩,false⟩

def swapItems (place destPlace : Place) (splitedAmount : UInt32) : State σ×Bool :=
  if s.bank.tabs ≤ place.1 ∨ GUILD_BANK_MAX_SLOTS ≤ place.2 ∨ s.bank.tabs ≤ destPlace.1 ∨
      GUILD_BANK_MAX_SLOTS ≤ destPlace.2 then (s,false)
  else if place=destPlace then (s,false)
  else moveItems e s player (bankData place) (bankData destPlace) splitedAmount

def swapItemsWithInventory (toChar : Bool) (place playerPlace : Place) (splitedAmount : UInt32) :
    State σ×Bool :=
  if (GUILD_BANK_MAX_SLOTS ≤ place.2 ∧ place.2≠NULL_SLOT) ∨ s.bank.tabs ≤ place.1 then (s,false)
  else if toChar then moveItems e s player (bankData place) (charData playerPlace) splitedAmount
  else moveItems e s player (charData playerPlace) (bankData place) splitedAmount

end Moves

section Between

variable {σ : Type} (e : Inventory σ) (s : State σ) (player : UInt32) {src dest : MoveItemData}
  (hsrc : src.isBank=true) (hdest : dest.isBank=true)

include hsrc hdest

theorem bank_hasStoreRights (b : Bank) :
    hasStoreRights player b src dest=GuildBankItemModel.hasStoreRights b player
      src.toBankMoveItemData dest.toBankMoveItemData := by
  unfold hasStoreRights GuildBankItemModel.hasStoreRights
  simp only [hsrc,hdest,if_true,true_and]

theorem bank_hasWithdrawRights (b : Bank) :
    hasWithdrawRights player b src dest=GuildBankItemModel.hasWithdrawRights b player
      src.toBankMoveItemData dest.toBankMoveItemData := by
  unfold hasWithdrawRights GuildBankItemModel.hasWithdrawRights
  cases getMember b.guild player <;> simp only [hsrc,hdest,if_true,true_and]

omit hdest in
theorem bank_initItem :
    (initItem e s player src).isBank=true ∧ (initItem e s player src).toBankMoveItemData=
      GuildBankItemModel.initItem s.bank src.toBankMoveItemData := by
  unfold initItem GuildBankItemModel.initItem
  rw [if_pos hsrc]
  exact ⟨hsrc,rfl⟩

omit hdest in
theorem bank_storeItem (item : ℕ) (vec : List ItemPosCount) :
    (storeItem e s player src item vec).bank=
      GuildBankItemModel.storeItem s.bank src.place.1 item vec := by
  unfold storeItem
  rw [if_pos hsrc]

theorem bank_removeItem (splitedAmount : UInt32) :
    (removeItem e s player src dest splitedAmount).bank=GuildBankItemModel.removeItem s.bank player
      src.toBankMoveItemData dest.toBankMoveItemData splitedAmount := by
  unfold removeItem GuildBankItemModel.removeItem countWithdrawal
  simp only [hsrc,hdest,if_true,Bool.true_eq_false,false_or]
  rfl

theorem bank_doItemsMove (splitedAmount : UInt32) :
    let r := doItemsMove e s player src dest splitedAmount
    (r.1.bank,r.2)=GuildBankItemModel.doItemsMove s.bank player src.toBankMoveItemData
      dest.toBankMoveItemData splitedAmount := by
  unfold doItemsMove GuildBankItemModel.doItemsMove canStore
  simp only [hsrc,hdest,if_true]
  cases (if splitedAmount≠0 then src.clonedItem else src.item) with
  | none => rfl
  | some srcItem =>
    dsimp only
    cases GuildBankItemModel.canStore s.bank dest.toBankMoveItemData srcItem dest.item.isSome with
    | error => rfl
    | ok destVec =>
      cases dest.item with
      | none =>
        dsimp only
        rw [bank_storeItem e _ player hdest,bank_removeItem e _ player hsrc hdest]
        rfl
      | some destItem =>
        dsimp only
        cases GuildBankItemModel.canStore s.bank src.toBankMoveItemData destItem true with
        | error => rfl
        | ok srcVec =>
          dsimp only
          rw [bank_storeItem e _ player hsrc,bank_storeItem e _ player hdest,
            bank_removeItem e _ player hdest hsrc,bank_removeItem e _ player hsrc hdest]
          rfl

theorem bank_swapMove :
    let r := swapMove e s player src dest
    (r.1.bank,r.2)=GuildBankItemModel.swapMove s.bank player src.toBankMoveItemData
      dest.toBankMoveItemData := by
  have hinit := bank_initItem e s player hdest
  unfold swapMove GuildBankItemModel.swapMove
  rw [← hinit.2]
  dsimp only
  rw [bank_hasStoreRights player hsrc hinit.1,bank_hasWithdrawRights player hinit.1 hsrc]
  split_ifs
  · rfl
  · rfl
  · rfl
  · exact bank_doItemsMove e s player hsrc hinit.1 0

theorem bank_moveItems (splitedAmount : UInt32) :
    let r := moveItems e s player src dest splitedAmount
    (r.1.bank,r.2)=GuildBankItemModel.moveItems s.bank player src.toBankMoveItemData
      dest.toBankMoveItemData splitedAmount := by
  have hinit := bank_initItem e s player hsrc
  unfold moveItems GuildBankItemModel.moveItems
  rw [← hinit.2]
  dsimp only
  cases (initItem e s player src).item with
  | none => rfl
  | some item =>
    dsimp only
    rw [bank_hasStoreRights player hdest hinit.1,bank_hasWithdrawRights player hinit.1 hdest]
    generalize (if splitedAmount=(s.bank.objects item).count then 0 else splitedAmount)=splited
    split_ifs
    · rfl
    · rfl
    · rfl
    · cases cloneItem s.bank item splited with
      | none => rfl
      | some clone => exact bank_doItemsMove e _ player (by exact hinit.1) hdest splited
    · have hmove := bank_doItemsMove e s player hinit.1 hdest 0
      dsimp only at hmove
      rw [← hmove]
      obtain ⟨moved,done⟩ := doItemsMove e s player (initItem e s player src) dest 0
      cases done with
      | true => rfl
      | false => exact bank_swapMove e moved player hinit.1 hdest

omit hsrc hdest in
/-- Between two tabs a move does to the bank what it does without the log. -/
theorem bank_swapItems (place destPlace : Place) (splitedAmount : UInt32) :
    let r := swapItems e s player place destPlace splitedAmount
    (r.1.bank,r.2)=GuildBankItemModel.swapItems s.bank player place destPlace splitedAmount := by
  unfold swapItems GuildBankItemModel.swapItems
  split_ifs
  · rfl
  · rfl
  · exact bank_moveItems e s player rfl rfl splitedAmount

end Between

/-- `ResetValues`: the withdrawals of a member on all tabs. -/
def resetValues (b : Bank) (guid : UInt32) : Bank :=
  { b with bankWithdraw := Function.update b.bankWithdraw guid fun _ => 0 }

/-- What a player does with the bank, or what happens to the players' items elsewhere. -/
inductive Action (σ : Type)
  | swapItems (player : UInt32) (place destPlace : Place) (splitedAmount : UInt32)
  | swapItemsWithInventory (player : UInt32) (toChar : Bool) (place playerPlace : Place)
      (splitedAmount : UInt32)
  /-- The players have other items. -/
  | elsewhere (inventory : UInt32 → σ)

/-- One action. -/
def step {σ : Type} (e : Inventory σ) (s : State σ) : Action σ → State σ
  | .swapItems player place destPlace splitedAmount =>
    (swapItems e s player place destPlace splitedAmount).1
  | .swapItemsWithInventory player toChar place playerPlace splitedAmount =>
    (swapItemsWithInventory e s player toChar place playerPlace splitedAmount).1
  | .elsewhere inventory => { s with inventory := inventory }

/-- The guild, its rights and the counted withdrawals are the same. -/
structure Keeps (b b' : Bank) : Prop where
  /-- The ranks and the members are the same. -/
  guild : b'.guild=b.guild
  rightsAndSlots : b'.rightsAndSlots=b.rightsAndSlots
  /-- The tabs are the same. -/
  tabs : b'.tabs=b.tabs
  bankWithdraw : b'.bankWithdraw=b.bankWithdraw

namespace Keeps

variable {b b' b'' : Bank}

theorem refl (b : Bank) : Keeps b b := ⟨rfl,rfl,rfl,rfl⟩

theorem trans (h : Keeps b b') (h' : Keeps b' b'') : Keeps b b'' :=
  ⟨h'.guild.trans h.guild,h'.rightsAndSlots.trans h.rightsAndSlots,h'.tabs.trans h.tabs,
    h'.bankWithdraw.trans h.bankWithdraw⟩

theorem setCount (b : Bank) (item : ℕ) (count : UInt32) :
    Keeps b (GuildBankItemModel.setCount b item count) := ⟨rfl,rfl,rfl,rfl⟩

theorem setItem (b : Bank) (place : Place) (item : Option ℕ) :
    Keeps b (GuildBankItemModel.setItem b place item) := by
  unfold GuildBankItemModel.setItem
  split_ifs
  · exact ⟨rfl,rfl,rfl,rfl⟩
  · exact refl b

theorem cloneItem {item clone : ℕ} {count : UInt32}
    (h : GuildBankItemModel.cloneItem b item count=some (b',clone)) : Keeps b b' := by
  unfold GuildBankItemModel.cloneItem at h
  split_ifs at h
  have hb := congrArg Prod.fst (Option.some.inj h)
  dsimp only at hb
  rw [← hb]
  exact ⟨rfl,rfl,rfl,rfl⟩

theorem takeItem (b : Bank) (d : BankMoveItemData) (splitedAmount : UInt32) :
    Keeps b (GuildBankWithdrawals.takeItem b d splitedAmount) := by
  unfold GuildBankWithdrawals.takeItem
  cases d.item with
  | none => exact refl b
  | some item =>
    dsimp only
    split_ifs
    · exact setCount b item _
    · exact setItem b d.place none

theorem storeItemAt (b : Bank) (tabId item : ℕ) (pos : ItemPosCount) (clone : Bool) :
    Keeps b (GuildBankItemModel.storeItemAt b tabId item pos clone) := by
  unfold GuildBankItemModel.storeItemAt
  cases getItem b (tabId,pos.pos) with
  | some destItem => exact setCount b destItem _
  | none =>
    dsimp only
    split_ifs
    · cases hclone : GuildBankItemModel.cloneItem b item pos.count with
      | none => exact refl b
      | some cloned => exact (cloneItem hclone).trans (setItem _ _ _)
    · exact (setCount b item pos.count).trans (setItem _ _ _)

theorem storeItem (b : Bank) (tabId item : ℕ) (vec : List ItemPosCount) :
    Keeps b (GuildBankItemModel.storeItem b tabId item vec) := by
  induction vec generalizing b with
  | nil => exact refl b
  | cons pos vec ih =>
    cases vec with
    | nil => exact storeItemAt b tabId item pos false
    | cons next vec => exact (storeItemAt b tabId item pos true).trans (ih _)

theorem slotsPerDay (h : Keeps b b') (rankId : UInt8) (tabId : ℕ) :
    getRankBankTabSlotsPerDay b' rankId tabId=getRankBankTabSlotsPerDay b rankId tabId := by
  unfold getRankBankTabSlotsPerDay
  rw [h.guild,h.rightsAndSlots,h.tabs]

theorem tabRights (h : Keeps b b') (rankId : UInt8) (tabId : ℕ) :
    getRankBankTabRights b' rankId tabId=getRankBankTabRights b rankId tabId := by
  unfold getRankBankTabRights
  rw [h.guild,h.rightsAndSlots]

theorem withdrawn (h : Keeps b b') (member : Member) (tabId : ℕ) :
    getBankWithdrawValue b' member tabId=getBankWithdrawValue b member tabId := by
  unfold getBankWithdrawValue
  rw [h.bankWithdraw]

theorem update (h : Keeps b b') (player : UInt32) (tabId : ℕ) :
    Keeps (updateMemberWithdrawSlots b player tabId)
      (updateMemberWithdrawSlots b' player tabId) := by
  unfold updateMemberWithdrawSlots
  rw [h.guild]
  cases getMember b.guild player with
  | none => exact h
  | some member =>
    dsimp only
    rw [h.slotsPerDay,h.withdrawn,h.bankWithdraw]
    split_ifs
    · exact ⟨rfl,h.rightsAndSlots,h.tabs,rfl⟩
    · exact h

theorem countWithdrawal (h : Keeps b b') (player : UInt32) (d other : MoveItemData) :
    Keeps (GuildBankWithdrawals.countWithdrawal player b d other)
      (GuildBankWithdrawals.countWithdrawal player b' d other) := by
  unfold GuildBankWithdrawals.countWithdrawal
  split_ifs
  · exact h.update player d.place.1
  · exact h

end Keeps

/-- What is counted when a stack goes from one end of a move to the other. -/
def charge (player : UInt32) (b : Bank) (src dest : MoveItemData) : Bank :=
  if src.isBank then countWithdrawal player b src dest else b

section Outcome

variable {σ : Type} (e : Inventory σ) (s : State σ) (player : UInt32) (src dest : MoveItemData)

theorem keeps_removeItem (splitedAmount : UInt32) :
    Keeps (charge player s.bank src dest) (removeItem e s player src dest splitedAmount).bank ∧
      (removeItem e s player src dest splitedAmount).log=s.log := by
  unfold removeItem charge
  dsimp only
  split_ifs
  · exact ⟨(Keeps.takeItem s.bank src.toBankMoveItemData splitedAmount).countWithdrawal player src
      dest,rfl⟩
  · exact ⟨Keeps.takeItem s.bank src.toBankMoveItemData splitedAmount,rfl⟩
  · exact ⟨Keeps.refl s.bank,rfl⟩

theorem keeps_storeItem (item : ℕ) (vec : List ItemPosCount) :
    Keeps s.bank (storeItem e s player dest item vec).bank ∧
      (storeItem e s player dest item vec).log=s.log := by
  unfold storeItem
  split_ifs
  · exact ⟨Keeps.storeItem s.bank dest.place.1 item vec,rfl⟩
  · exact ⟨⟨rfl,rfl,rfl,rfl⟩,rfl⟩

/-- What a try to move leaves: all as it was, or one stack moved, or two exchanged. -/
inductive Outcome (s : State σ) (player : UInt32) (src dest : MoveItemData) : State σ×Bool → Prop
  /-- Nothing is moved. -/
  | refused : Outcome s player src dest (s,false)
  /-- A stack is moved. -/
  | moved (s' : State σ) (hlog : s'.log=s.log++[⟨player,src.container,dest.container⟩])
      (hkeeps : Keeps (charge player s.bank src dest) s'.bank) : Outcome s player src dest (s',true)
  /-- Two stacks are exchanged. -/
  | exchanged (s' : State σ) (hdest : dest.item≠none)
      (hlog : s'.log=(s.log++[⟨player,src.container,dest.container⟩])++
        [⟨player,dest.container,src.container⟩])
      (hkeeps : Keeps (charge player (charge player s.bank src dest) dest src) s'.bank) :
      Outcome s player src dest (s',true)

theorem Keeps.charge {b b' : Bank} (h : Keeps b b') (player : UInt32) (src dest : MoveItemData) :
    Keeps (GuildBankWithdrawals.charge player b src dest)
      (GuildBankWithdrawals.charge player b' src dest) := by
  unfold GuildBankWithdrawals.charge
  split_ifs
  · exact h.countWithdrawal player src dest
  · exact h

theorem outcome_doItemsMove (splitedAmount : UInt32) :
    Outcome s player src dest (doItemsMove e s player src dest splitedAmount) := by
  unfold doItemsMove
  cases (if splitedAmount≠0 then src.clonedItem else src.item) with
  | none => exact .refused
  | some srcItem =>
    dsimp only
    cases canStore e s player dest srcItem dest.item.isSome with
    | error _ => exact .refused
    | ok destVec =>
      cases hdest : dest.item with
      | none =>
        have hremove := keeps_removeItem e (logBankEvent s player dest src) player src dest
          splitedAmount
        have hstore := keeps_storeItem e (removeItem e (logBankEvent s player dest src) player src
          dest splitedAmount) player dest srcItem destVec
        exact .moved _ (hstore.2.trans hremove.2) (hremove.1.trans hstore.1)
      | some destItem =>
        dsimp only
        cases canStore e s player src destItem true with
        | error _ => exact .refused
        | ok srcVec =>
          generalize hlogged : logBankEvent (logBankEvent s player dest src) player src dest=t
          have hfirst := keeps_removeItem e t player src dest splitedAmount
          have hsecond := keeps_removeItem e (removeItem e t player src dest splitedAmount) player
            dest src 0
          have hstore := keeps_storeItem e (removeItem e (removeItem e t player src dest
            splitedAmount) player dest src 0) player dest srcItem destVec
          have hlast := keeps_storeItem e (storeItem e (removeItem e (removeItem e t player src dest
            splitedAmount) player dest src 0) player dest srcItem destVec) player src destItem
            srcVec
          subst hlogged
          refine .exchanged _ (by rw [hdest]; exact Option.some_ne_none _)
            (hlast.2.trans (hstore.2.trans (hsecond.2.trans hfirst.2))) ?_
          exact (((hfirst.1.charge player dest src).trans hsecond.1).trans hstore.1).trans hlast.1

end Outcome

/-- How many stacks a player has taken out of a tab. -/
def taken (guid : UInt32) (tabId : ℕ) (log : List Transfer) : ℕ :=
  log.countP fun x => x.player=guid ∧ x.src=some tabId ∧ x.dest≠some tabId

theorem taken_concat (guid : UInt32) (tabId : ℕ) (log : List Transfer) (x : Transfer) :
    taken guid tabId (log++[x])=taken guid tabId log+
      if x.player=guid ∧ x.src=some tabId ∧ x.dest≠some tabId then 1 else 0 := by
  unfold taken
  rw [List.countP_append,List.countP_singleton]
  simp only [decide_eq_true_eq]

section Counter

variable {b : Bank} {guid player : UInt32} {m : Member} {tabId tabId' : ℕ}

theorem guild_update (b : Bank) (player : UInt32) (tabId : ℕ) :
    (updateMemberWithdrawSlots b player tabId).guild=b.guild ∧
      (updateMemberWithdrawSlots b player tabId).rightsAndSlots=b.rightsAndSlots ∧
      (updateMemberWithdrawSlots b player tabId).tabs=b.tabs := by
  unfold updateMemberWithdrawSlots
  cases getMember b.guild player with
  | none => exact ⟨rfl,rfl,rfl⟩
  | some member =>
    dsimp only
    split_ifs <;> exact ⟨rfl,rfl,rfl⟩

theorem withdraw_update_of_ne (h : player≠guid ∨ tabId≠tabId') :
    (updateMemberWithdrawSlots b player tabId).bankWithdraw guid tabId'=
      b.bankWithdraw guid tabId' := by
  unfold updateMemberWithdrawSlots
  cases hm : getMember b.guild player with
  | none => rfl
  | some member =>
    dsimp only
    split_ifs
    · have hguid := (getMember_eq_some.mp hm).2
      by_cases hplayer : player=guid
      · dsimp only
        rw [hguid,hplayer,Function.update_self,
          Function.update_of_ne (h.resolve_left (not_not_intro hplayer)).symm]
      · dsimp only
        rw [hguid,Function.update_of_ne (Ne.symm hplayer)]
    · rfl

/-- A withdrawal that is left is counted. -/
theorem withdraw_update (hm : getMember b.guild guid=some m) (hrank : m.rankId≠GR_GUILDMASTER)
    (hlt : b.bankWithdraw guid tabId < getRankBankTabSlotsPerDay b m.rankId tabId) :
    (updateMemberWithdrawSlots b guid tabId).bankWithdraw guid tabId=
      b.bankWithdraw guid tabId+1 := by
  have hguid := (getMember_eq_some.mp hm).2
  have hvalue : getBankWithdrawValue b m tabId=b.bankWithdraw guid tabId := by
    unfold getBankWithdrawValue
    rw [if_neg hrank,hguid]
  unfold updateMemberWithdrawSlots
  rw [hm]
  dsimp only
  rw [hvalue,if_pos ⟨hrank,hlt⟩]
  dsimp only
  rw [hguid,Function.update_self,Function.update_self]

/-- A member that has withdrawals left has counted fewer than the rank may make. -/
theorem lt_of_remaining (hm : getMember b.guild guid=some m) (hrank : m.rankId≠GR_GUILDMASTER)
    {n : ℕ} (hn : (b.bankWithdraw guid tabId).toInt=n)
    (hlimit : n=0 ∨ (n : ℤ) ≤ (getRankBankTabSlotsPerDay b m.rankId tabId).toInt)
    (hremaining : getMemberRemainingSlots b m tabId≠0) :
    b.bankWithdraw guid tabId < getRankBankTabSlotsPerDay b m.rankId tabId := by
  have hguid := (getMember_eq_some.mp hm).2
  have hvalue : getBankWithdrawValue b m tabId=b.bankWithdraw guid tabId := by
    unfold getBankWithdrawValue
    rw [if_neg hrank,hguid]
  unfold getMemberRemainingSlots at hremaining
  rw [if_neg hrank,hvalue] at hremaining
  dsimp only at hremaining
  have hpos : 0 < getRankBankTabSlotsPerDay b m.rankId tabId-b.bankWithdraw guid tabId := by
    by_contra hle
    rw [if_neg hle,ite_self] at hremaining
    exact hremaining rfl
  have hdiff := Int32.toInt_sub (getRankBankTabSlotsPerDay b m.rankId tabId)
    (b.bankWithdraw guid tabId)
  rw [Int32.lt_iff_toInt_lt,Int32.toInt_zero,hdiff,hn] at hpos
  rw [Int32.lt_iff_toInt_lt,hn]
  have hlow := Int32.le_toInt (getRankBankTabSlotsPerDay b m.rankId tabId)
  have hhigh := Int32.toInt_lt (getRankBankTabSlotsPerDay b m.rankId tabId)
  rw [Int.bmod_eq_of_le (by omega) (by omega)] at hpos
  omega

/-- The counter of a member that has withdrawals left does not overflow. -/
theorem toInt_succ {w limit : Int32} (h : w < limit) : (w+1).toInt=w.toInt+1 := by
  rw [Int32.lt_iff_toInt_lt] at h
  have hlow := Int32.le_toInt w
  have hhigh := Int32.toInt_lt limit
  rw [Int32.toInt_add,Int32.toInt_one]
  exact Int.bmod_eq_of_le (by omega) (by omega)

end Counter

section Rights

variable {b : Bank} {player : UInt32} {src dest : MoveItemData} {tabId : ℕ}

theorem container_eq_some : src.container=some tabId ↔ src.isBank=true ∧ src.place.1=tabId := by
  unfold MoveItemData.container
  cases src.isBank <;> simp

/-- What leaves a tab is counted for it, and nothing else. -/
theorem charge_cases (player : UInt32) (b : Bank) (src dest : MoveItemData) :
    (∃ tabId,src.container=some tabId ∧ dest.container≠some tabId ∧
      charge player b src dest=updateMemberWithdrawSlots b player tabId) ∨
    ((∀ tabId,src.container=some tabId → dest.container=some tabId) ∧
      charge player b src dest=b) := by
  unfold charge countWithdrawal
  by_cases hsrc : src.isBank=true
  · rw [if_pos hsrc]
    have hcontainer : src.container=some src.place.1 := container_eq_some.mpr ⟨hsrc,rfl⟩
    by_cases hother : dest.isBank=false ∨ dest.place.1≠src.place.1
    · refine Or.inl ⟨src.place.1,hcontainer,fun hdest => ?_,if_pos hother⟩
      obtain ⟨hbank,hplace⟩ := container_eq_some.mp hdest
      rcases hother with hfalse | hne
      · exact Bool.false_ne_true (hfalse.symm.trans hbank)
      · exact hne hplace
    · obtain ⟨hbank,hplace⟩ := not_or.mp hother
      refine Or.inr ⟨fun tabId htab => ?_,if_neg hother⟩
      rw [← htab,hcontainer]
      exact container_eq_some.mpr ⟨eq_true_of_ne_false hbank,not_not.mp hplace⟩
  · rw [if_neg hsrc]
    exact Or.inr ⟨fun tabId htab => absurd (container_eq_some.mp htab).1 hsrc,rfl⟩

theorem remaining_of_rights (hsrc : src.container=some tabId) (hdest : dest.container≠some tabId)
    (h : hasWithdrawRights player b src dest=true) :
    ∃ m,getMember b.guild player=some m ∧ getMemberRemainingSlots b m tabId≠0 := by
  obtain ⟨hbank,rfl⟩ := container_eq_some.mp hsrc
  unfold hasWithdrawRights at h
  rw [if_pos hbank,if_neg (fun hand => hdest (container_eq_some.mpr hand))] at h
  cases hm : getMember b.guild player with
  | none =>
    rw [hm] at h
    cases h
  | some m =>
    rw [hm] at h
    exact ⟨m,rfl,bne_iff_ne.mp h⟩

theorem tabRights_of_rights (hdest : dest.container=some tabId) (hsrc : src.container≠some tabId)
    (h : hasStoreRights player b dest src=true) :
    memberHasTabRights b player tabId GUILD_BANK_RIGHT_DEPOSIT_ITEM=true := by
  obtain ⟨hbank,rfl⟩ := container_eq_some.mp hdest
  unfold hasStoreRights at h
  rwa [if_pos hbank,if_neg (fun hand => hsrc (container_eq_some.mpr hand))] at h

theorem keeps_charge (player : UInt32) (b : Bank) (src dest : MoveItemData) :
    (charge player b src dest).guild=b.guild ∧
      (charge player b src dest).rightsAndSlots=b.rightsAndSlots ∧
      (charge player b src dest).tabs=b.tabs := by
  rcases charge_cases player b src dest with ⟨tabId,-,-,heq⟩ | ⟨-,heq⟩
  · rw [heq]
    exact guild_update b player tabId
  · rw [heq]
    exact ⟨rfl,rfl,rfl⟩

theorem hasStoreRights_congr {b' : Bank} (hguild : b'.guild=b.guild)
    (hrights : b'.rightsAndSlots=b.rightsAndSlots) :
    hasStoreRights player b' dest src=hasStoreRights player b dest src := by
  unfold hasStoreRights memberHasTabRights getRankBankTabRights
  rw [hguild,hrights]

theorem hasWithdrawRights_keeps {b' : Bank} (h : Keeps b b') :
    hasWithdrawRights player b' dest src=hasWithdrawRights player b dest src := by
  unfold hasWithdrawRights getMemberRemainingSlots
  rw [h.guild]
  simp only [h.tabRights,h.slotsPerDay,h.withdrawn]

/-- What is counted for one end of a move leaves the other end what it has left. -/
theorem hasWithdrawRights_charge (player : UInt32) (b : Bank) (src dest : MoveItemData) :
    hasWithdrawRights player (charge player b src dest) dest src=
      hasWithdrawRights player b dest src := by
  rcases charge_cases player b src dest with ⟨tabId,-,hdest,heq⟩ | ⟨-,heq⟩
  · rw [heq]
    obtain ⟨hguild,hrights,htabs⟩ := guild_update b player tabId
    unfold hasWithdrawRights
    rw [hguild]
    by_cases hbank : dest.isBank=true
    · have hne : tabId≠dest.place.1 := fun h => hdest (container_eq_some.mpr ⟨hbank,h.symm⟩)
      have hremaining : ∀ m,getMemberRemainingSlots (updateMemberWithdrawSlots b player tabId) m
          dest.place.1=getMemberRemainingSlots b m dest.place.1 := by
        intro m
        unfold getMemberRemainingSlots getRankBankTabRights getRankBankTabSlotsPerDay
          getBankWithdrawValue
        rw [hguild,hrights,htabs,withdraw_update_of_ne (Or.inr hne)]
      simp only [hremaining]
    · rw [if_neg hbank,if_neg hbank]
  · rw [heq]

end Rights

section Ends

variable {σ : Type} (e : Inventory σ) (s : State σ) (player : UInt32) (d : MoveItemData)

theorem initItem_end : (initItem e s player d).isBank=d.isBank ∧
    (initItem e s player d).place=d.place := by
  unfold initItem
  split_ifs <;> exact ⟨rfl,rfl⟩

variable {e s player d} {b : Bank} {other : MoveItemData}

theorem hasStoreRights_initItem :
    hasStoreRights player b (initItem e s player d) other=hasStoreRights player b d other := by
  obtain ⟨hbank,hplace⟩ := initItem_end e s player d
  unfold hasStoreRights
  rw [hbank,hplace]

theorem hasWithdrawRights_initItem :
    hasWithdrawRights player b other (initItem e s player d)=hasWithdrawRights player b other d := by
  obtain ⟨hbank,hplace⟩ := initItem_end e s player d
  unfold hasWithdrawRights
  rw [hbank,hplace]

end Ends

/-- The withdrawals of a member are counted and within the limit, and it has put into the tabs
what it may. -/
structure Counted {σ : Type} (guid : UInt32) (m : Member) (b : Bank) (s : State σ) : Prop where
  /-- The ranks and the members are the same. -/
  guild : s.bank.guild=b.guild
  rightsAndSlots : s.bank.rightsAndSlots=b.rightsAndSlots
  tabs : s.bank.tabs=b.tabs
  counted : ∀ tabId,(s.bank.bankWithdraw guid tabId).toInt=taken guid tabId s.log
  /-- Not more was taken than the rank may. -/
  limit : ∀ tabId,taken guid tabId s.log=0 ∨
    (taken guid tabId s.log : ℤ) ≤ (getRankBankTabSlotsPerDay b m.rankId tabId).toInt
  /-- What was put into a tab the member may put there. -/
  deposits : ∀ x∈s.log,x.player=guid → ∀ tabId,x.dest=some tabId → x.src≠some tabId →
    memberHasTabRights b guid tabId GUILD_BANK_RIGHT_DEPOSIT_ITEM=true

namespace Counted

variable {σ : Type} {guid player : UInt32} {m : Member} {b : Bank} {s s' : State σ}
variable {src dest : MoveItemData}

theorem slotsPerDay (h : Counted guid m b s) (rankId : UInt8) (tabId : ℕ) :
    getRankBankTabSlotsPerDay s.bank rankId tabId=getRankBankTabSlotsPerDay b rankId tabId := by
  unfold getRankBankTabSlotsPerDay
  rw [h.guild,h.rightsAndSlots,h.tabs]

theorem memberHasTabRights (h : Counted guid m b s) (player : UInt32) (tabId : ℕ) (rights : UInt8) :
    GuildBankItemModel.memberHasTabRights s.bank player tabId rights=
      GuildBankItemModel.memberHasTabRights b player tabId rights := by
  unfold GuildBankItemModel.memberHasTabRights getRankBankTabRights
  rw [h.guild,h.rightsAndSlots]

/-- What the counters say after a stack was moved with the rights to do so. -/
theorem step_tab (h : Counted guid m b s) (hm : getMember b.guild guid=some m)
    (hrank : m.rankId≠GR_GUILDMASTER) (hwithdraw : hasWithdrawRights player s.bank src dest=true)
    (tabId : ℕ) :
    ((charge player s.bank src dest).bankWithdraw guid tabId).toInt=
        taken guid tabId (s.log++[⟨player,src.container,dest.container⟩]) ∧
      (taken guid tabId (s.log++[⟨player,src.container,dest.container⟩])=0 ∨
        (taken guid tabId (s.log++[⟨player,src.container,dest.container⟩]) : ℤ) ≤
          (getRankBankTabSlotsPerDay b m.rankId tabId).toInt) := by
  rw [taken_concat]
  by_cases hout : player=guid ∧ src.container=some tabId ∧ dest.container≠some tabId
  · obtain ⟨rfl,hsrc,hdest⟩ := hout
    rw [if_pos ⟨rfl,hsrc,hdest⟩]
    have hm' : getMember s.bank.guild player=some m := by rw [h.guild,hm]
    obtain ⟨m',hm'',hremaining⟩ := remaining_of_rights hsrc hdest hwithdraw
    obtain rfl : m=m' := Option.some.inj (hm'.symm.trans hm'')
    have hlimit := h.limit tabId
    rw [← h.slotsPerDay] at hlimit
    have hlt := lt_of_remaining hm' hrank (h.counted tabId) hlimit hremaining
    rcases charge_cases player s.bank src dest with ⟨tabId',hsrc',-,heq⟩ | ⟨hsame,-⟩
    · obtain rfl : tabId=tabId' := Option.some.inj (hsrc.symm.trans hsrc')
      have hcounted := h.counted tabId
      rw [heq,withdraw_update hm' hrank hlt,toInt_succ hlt,hcounted]
      rw [Int32.lt_iff_toInt_lt,hcounted,h.slotsPerDay] at hlt
      push_cast
      exact ⟨rfl,Or.inr hlt⟩
    · exact absurd (hsame tabId hsrc) hdest
  · rw [if_neg hout,Nat.add_zero]
    refine ⟨?_,h.limit tabId⟩
    rw [← h.counted tabId]
    rcases charge_cases player s.bank src dest with ⟨tabId',hsrc,hdest,heq⟩ | ⟨-,heq⟩
    · rw [heq,withdraw_update_of_ne]
      by_contra hnot
      obtain ⟨hplayer,htab⟩ := not_or.mp hnot
      rw [not_not.mp htab] at hsrc hdest
      exact hout ⟨not_not.mp hplayer,hsrc,hdest⟩
    · rw [heq]

theorem transfer (h : Counted guid m b s) (hm : getMember b.guild guid=some m)
    (hrank : m.rankId≠GR_GUILDMASTER)
    (hlog : s'.log=s.log++[⟨player,src.container,dest.container⟩])
    (hkeeps : Keeps (charge player s.bank src dest) s'.bank)
    (hstore : hasStoreRights player s.bank dest src=true)
    (hwithdraw : hasWithdrawRights player s.bank src dest=true) : Counted guid m b s' := by
  obtain ⟨hguild,hrights,htabs⟩ := keeps_charge player s.bank src dest
  refine ⟨(hkeeps.guild.trans hguild).trans h.guild,
    (hkeeps.rightsAndSlots.trans hrights).trans h.rightsAndSlots,
    (hkeeps.tabs.trans htabs).trans h.tabs,fun tabId => ?_,fun tabId => ?_,?_⟩
  · rw [hkeeps.bankWithdraw,hlog]
    exact (h.step_tab hm hrank hwithdraw tabId).1
  · rw [hlog]
    exact (h.step_tab hm hrank hwithdraw tabId).2
  intro x hx hplayer tabId hdest hsrc
  rw [hlog] at hx
  rcases List.mem_append.mp hx with hx | hx
  · exact h.deposits x hx hplayer tabId hdest hsrc
  · rw [List.mem_singleton.mp hx] at hplayer hdest hsrc
    rw [← h.memberHasTabRights,← hplayer]
    exact tabRights_of_rights hdest hsrc hstore

/-- Two stacks are exchanged with the rights to do so in both directions. -/
theorem exchange (h : Counted guid m b s) (hm : getMember b.guild guid=some m)
    (hrank : m.rankId≠GR_GUILDMASTER)
    (hlog : s'.log=(s.log++[⟨player,src.container,dest.container⟩])++
      [⟨player,dest.container,src.container⟩])
    (hkeeps : Keeps (charge player (charge player s.bank src dest) dest src) s'.bank)
    (hstore : hasStoreRights player s.bank dest src=true)
    (hwithdraw : hasWithdrawRights player s.bank src dest=true)
    (hstore' : hasStoreRights player s.bank src dest=true)
    (hwithdraw' : hasWithdrawRights player s.bank dest src=true) : Counted guid m b s' := by
  have hfirst : Counted guid m b (⟨charge player s.bank src dest,s.inventory,
      s.log++[⟨player,src.container,dest.container⟩]⟩ : State σ) :=
    h.transfer hm hrank rfl (Keeps.refl _) hstore hwithdraw
  obtain ⟨hguild,hrights,-⟩ := keeps_charge player s.bank src dest
  refine hfirst.transfer hm hrank hlog hkeeps ?_ ?_
  · exact (hasStoreRights_congr hguild hrights).trans hstore'
  · exact (hasWithdrawRights_charge player s.bank src dest).trans hwithdraw'

theorem keeps {b' : Bank} (h : Counted guid m b s) (hkeeps : Keeps s.bank b') :
    Counted guid m b { s with bank := b' } := by
  refine ⟨hkeeps.guild.trans h.guild,hkeeps.rightsAndSlots.trans h.rightsAndSlots,
    hkeeps.tabs.trans h.tabs,fun tabId => ?_,h.limit,h.deposits⟩
  dsimp only
  rw [hkeeps.bankWithdraw]
  exact h.counted tabId

theorem doItemsMove {e : Inventory σ} {splitedAmount : UInt32} (h : Counted guid m b s)
    (hm : getMember b.guild guid=some m) (hrank : m.rankId≠GR_GUILDMASTER) (hdest : dest.item=none)
    (hstore : hasStoreRights player s.bank dest src=true)
    (hwithdraw : hasWithdrawRights player s.bank src dest=true) :
    Counted guid m b (GuildBankWithdrawals.doItemsMove e s player src dest splitedAmount).1 := by
  have hout := outcome_doItemsMove e s player src dest splitedAmount
  generalize GuildBankWithdrawals.doItemsMove e s player src dest splitedAmount=r at hout ⊢
  cases hout with
  | refused => exact h
  | moved s' hlog hkeeps => exact h.transfer hm hrank hlog hkeeps hstore hwithdraw
  | exchanged s' hsome hlog hkeeps => exact absurd hdest hsome

theorem swapMove {e : Inventory σ} (h : Counted guid m b s)
    (hm : getMember b.guild guid=some m) (hrank : m.rankId≠GR_GUILDMASTER)
    (hstore : hasStoreRights player s.bank dest src=true)
    (hwithdraw : hasWithdrawRights player s.bank src dest=true) :
    Counted guid m b (GuildBankWithdrawals.swapMove e s player src dest).1 := by
  unfold GuildBankWithdrawals.swapMove
  dsimp only
  split_ifs with hitem hstore' hwithdraw'
  · exact h
  · exact h
  · exact h
  rw [Bool.not_eq_true',Bool.not_eq_false] at hstore' hwithdraw'
  have hstore'' : hasStoreRights player s.bank (initItem e s player dest) src=true :=
    hasStoreRights_initItem.trans hstore
  have hwithdraw'' : hasWithdrawRights player s.bank src (initItem e s player dest)=true :=
    hasWithdrawRights_initItem.trans hwithdraw
  have hout := outcome_doItemsMove e s player src (initItem e s player dest) 0
  generalize GuildBankWithdrawals.doItemsMove e s player src (initItem e s player dest) 0=r
    at hout ⊢
  cases hout with
  | refused => exact h
  | moved s' hlog hkeeps => exact h.transfer hm hrank hlog hkeeps hstore'' hwithdraw''
  | exchanged s' hsome hlog hkeeps =>
    exact h.exchange hm hrank hlog hkeeps hstore'' hwithdraw'' hstore' hwithdraw'

theorem moveItems {e : Inventory σ} {splitedAmount : UInt32} (h : Counted guid m b s)
    (hm : getMember b.guild guid=some m) (hrank : m.rankId≠GR_GUILDMASTER)
    (hdest : dest.item=none) :
    Counted guid m b (GuildBankWithdrawals.moveItems e s player src dest splitedAmount).1 := by
  unfold GuildBankWithdrawals.moveItems
  dsimp only
  cases (initItem e s player src).item with
  | none => exact h
  | some item =>
    dsimp only
    generalize (if splitedAmount=(s.bank.objects item).count then 0 else splitedAmount)=splited
    by_cases hcount : (s.bank.objects item).count < splitedAmount
    · rw [if_pos hcount]
      exact h
    rw [if_neg hcount]
    cases hstore : hasStoreRights player s.bank dest (initItem e s player src) with
    | false => exact h
    | true =>
      cases hwithdraw : hasWithdrawRights player s.bank (initItem e s player src) dest with
      | false => exact h
      | true =>
        rw [Bool.not_true,if_neg Bool.false_ne_true,if_neg Bool.false_ne_true]
        by_cases hsplited : splited≠0
        · rw [if_pos hsplited]
          cases hclone : cloneItem s.bank item splited with
          | none => exact h
          | some clone =>
            have hkeeps : Keeps s.bank clone.1 := Keeps.cloneItem hclone
            exact (h.keeps hkeeps).doItemsMove hm hrank hdest
              ((hasStoreRights_congr hkeeps.guild hkeeps.rightsAndSlots).trans hstore)
              ((hasWithdrawRights_keeps hkeeps).trans hwithdraw)
        · rw [if_neg hsplited]
          have hout := outcome_doItemsMove e s player (initItem e s player src) dest 0
          generalize GuildBankWithdrawals.doItemsMove e s player (initItem e s player src) dest 0=r
            at hout ⊢
          cases hout with
          | refused => exact h.swapMove hm hrank hstore hwithdraw
          | moved s' hlog hkeeps => exact h.transfer hm hrank hlog hkeeps hstore hwithdraw
          | exchanged s' hsome hlog hkeeps => exact absurd hdest hsome

/-- Every action is taken with the rights that it asks for. -/
theorem step {e : Inventory σ} (h : Counted guid m b s) (hm : getMember b.guild guid=some m)
    (hrank : m.rankId≠GR_GUILDMASTER) (a : Action σ) :
    Counted guid m b (GuildBankWithdrawals.step e s a) := by
  cases a with
  | swapItems player place destPlace splitedAmount =>
    unfold GuildBankWithdrawals.step GuildBankWithdrawals.swapItems
    dsimp only
    split_ifs
    · exact h
    · exact h
    · exact h.moveItems hm hrank rfl
  | swapItemsWithInventory player toChar place playerPlace splitedAmount =>
    unfold GuildBankWithdrawals.step GuildBankWithdrawals.swapItemsWithInventory
    dsimp only
    split_ifs
    · exact h
    · exact h.moveItems hm hrank rfl
    · exact h.moveItems hm hrank rfl
  | elsewhere inventory =>
    exact ⟨h.guild,h.rightsAndSlots,h.tabs,h.counted,h.limit,h.deposits⟩

end Counted

/-- The rank has the right to see the tab. -/
def MayView (b : Bank) (rankId : UInt8) (tabId : ℕ) : Prop :=
  getRankBankTabRights b rankId tabId &&& GUILD_BANK_RIGHT_VIEW_TAB=GUILD_BANK_RIGHT_VIEW_TAB

/-- The rank has the right to put items into the tab. -/
def MayDeposit (b : Bank) (rankId : UInt8) (tabId : ℕ) : Prop :=
  getRankBankTabRights b rankId tabId &&& GUILD_BANK_RIGHT_DEPOSIT_ITEM=
    GUILD_BANK_RIGHT_DEPOSIT_ITEM

/-- What a member has moved is within what its rank may, on one tab. -/
structure WithinRights (guid : UInt32) (b : Bank) (rankId : UInt8) (log : List Transfer)
    (tabId : ℕ) : Prop where
  limit : (taken guid tabId log : ℤ) ≤ max 0 (getRankBankTabSlotsPerDay b rankId tabId).toInt
  unseen : ¬MayView b rankId tabId → taken guid tabId log=0
  /-- Items were put in from outside only if the rank may do that. -/
  deposits : ∀ x∈log,x.player=guid → x.dest=some tabId → x.src≠some tabId →
    MayDeposit b rankId tabId

/-- The withdrawals of a member are reset, and what follows is written down. -/
def newDay {σ : Type} (s : State σ) (guid : UInt32) : State σ :=
  { s with bank := resetValues s.bank guid, log := [] }

theorem counted_newDay {σ : Type} (s : State σ) (guid : UInt32) (m : Member) :
    Counted guid m s.bank (newDay s guid) := by
  refine ⟨rfl,rfl,rfl,fun tabId => ?_,fun _ => Or.inl rfl,fun x hx => absurd hx List.not_mem_nil⟩
  show (Function.update s.bank.bankWithdraw guid (fun _ => 0) guid tabId).toInt=0
  rw [Function.update_self]
  rfl

/-- Between two resets a member that neither leads the guild nor has the highest rank moves items
within the rights of its rank, where the rank may take items only out of tabs that it may see. -/
theorem tab_withdrawals {σ : Type} (e : Inventory σ) (s : State σ) {guid : UInt32} {m : Member}
    (hm : getMember s.bank.guild guid=some m) (hrank : m.rankId≠GR_GUILDMASTER)
    (hleader : s.bank.guild.leaderGuid≠guid)
    (as : List (Action σ)) (tabId : ℕ) (hview : MayView s.bank m.rankId tabId ∨
      (getRankBankTabSlotsPerDay s.bank m.rankId tabId).toInt ≤ 0) :
    WithinRights guid s.bank m.rankId (run (step e) (newDay s guid) as).log tabId := by
  have h : Counted guid m s.bank (run (step e) (newDay s guid) as) :=
    run_invariant_always (fun _ a h => h.step hm hrank a) (counted_newDay s guid m) as
  have hlimit := h.limit tabId
  refine ⟨by omega,fun hunseen => ?_,fun x hx hplayer hdest hsrc => ?_⟩
  · have hzero := hview.resolve_left hunseen
    omega
  have hright := h.deposits x hx hplayer tabId hdest hsrc
  unfold memberHasTabRights at hright
  rw [hm] at hright
  dsimp only at hright
  rw [if_neg (not_or.mpr ⟨hrank,hleader⟩)] at hright
  exact beq_iff_eq.mp hright

/-- A player that has nothing and can take nothing. -/
def nothing : Inventory Unit where
  getItemByPos := fun _ _ => none
  isNotEmptyBag := fun _ _ => false
  canBeTraded := fun _ _ => false
  canStoreItem := fun _ _ _ _ _ => .error .bankFull
  moveItemFromInventory := fun _ _ => ()
  moveItemToInventory := fun _ objects _ _ => ((),objects)

/-- A bank of two tabs with one item; an officer has these rights on the first tab, may see and fill
the second one, and may take ten items a day. -/
def sample (rights : UInt8) : State Unit where
  bank :=
    { guild := ⟨7,[⟨0,"Guild Master",GR_RIGHT_ALL,0⟩,⟨1,"Officer",GR_RIGHT_ALL,0⟩],
        [⟨7,"a",0⟩,⟨8,"b",1⟩],by decide⟩
      rightsAndSlots := fun _ tabId => if tabId=0 then ⟨rights,10⟩ else ⟨3,10⟩
      bankWithdraw := fun _ _ => 0
      stackable := fun _ => 1
      tabs := 2
      items := fun place => if place=(0,0) then some 0 else none
      objects := fun _ => ⟨25,1,false⟩
      next := 1 }
  inventory := fun _ => ()
  log := []

/-- The officer moves the item from the first tab to the second one. -/
def sampleMove : List (Action Unit) := [.swapItems 8 (0,0) (1,0) 0]

theorem tab_withdrawals_sample :
    WithinRights 8 (sample 1).bank 1 (run (step nothing) (newDay (sample 1) 8) sampleMove).log 0 := by
  refine tab_withdrawals nothing (sample 1) (m := ⟨8,"b",1⟩) rfl (by decide) (by decide) sampleMove
    0 (Or.inl ?_)
  unfold MayView
  decide

/-- An officer without the right to see the first tab takes the item out of it. -/
theorem taken_unseen :
    ¬∀ (σ : Type) (e : Inventory σ) (s : State σ) (guid : UInt32) (m : Member),
      getMember s.bank.guild guid=some m → m.rankId≠GR_GUILDMASTER →
      s.bank.guild.leaderGuid≠guid → ∀ (as : List (Action σ)) (tabId : ℕ),
        WithinRights guid s.bank m.rankId (run (step e) (newDay s guid) as).log tabId := by
  intro hall
  have h := hall Unit nothing (sample 0) 8 ⟨8,"b",1⟩ rfl (by decide) (by decide) sampleMove 0
  have hunseen : ¬MayView (sample 0).bank 1 0 := by
    unfold MayView
    decide
  exact absurd (h.unseen hunseen) (by decide)

end Projectnelth.GuildBankWithdrawals
