import Mathlib
import Projectnelth.VoidStorageDeposits

/-!
# Withdrawals, transfers and swaps

A withdrawal should add one unit of the kind the record names and empty the slot, a request
that is refused should change nothing, and a swap should touch the slots of the packet alone.
-/

namespace Projectnelth.VoidStorageModel

open KeyedList PlayerMoney Player

/-- The units of a kind. -/
def units (items : List Item) (g : Good) : ℕ :=
  (items.map fun i => if i.good=g then i.count else 0).sum

/-- What is stored and paid is the same. -/
def Same (p p' : Player) : Prop :=
  p'.items=p.items ∧ p'.voidStorageItems=p.voidStorageItems ∧ p'.money=p.money

/-- Where a turn of the loop over the ids ends. -/
def withdrawStep (w : World) (p : Player) (id : ℕ) : Player :=
  match withdrawTurn w p id with
  | .ok p' => p'
  | .error p' => p'

/-- A turn of the loop is not refused. -/
def Storable (w : World) (p : Player) (id : ℕ) : Prop :=
  ∀ x∈p.getVoidStorageItem id, w.canStoreNewItem p.items x.2.itemEntry≠none

/-- A withdrawal is lawful: the inventory gets one unit of the kind the record names, and its
slot is empty. -/
def WithdrawLaw (w : World) (p : Player) (id : ℕ) : Prop :=
  match p.getVoidStorageItem id with
  | none => Same p (withdrawStep w p id)
  | some (slot,itemVS) =>
    (∀ g, units (withdrawStep w p id).items g=
      units p.items g+if g=itemVS.good then 1 else 0) ∧
      (withdrawStep w p id).voidStorageItems=Function.update p.voidStorageItems slot none ∧
      (withdrawStep w p id).money=p.money

/-- There is room for the item, on a stack of its own kind or in an empty place; in an empty
place the stores still know its random property, and give it the suffix factor again. -/
def PlaceOk (w : World) (p : Player) (itemVS : VoidStorageItem) : Option Place → Prop
  | none => False
  | some (.stack guid) => ∀ i∈p.getItemByGuid guid, i.good=itemVS.good
  | some (.empty _) =>
    setItemRandomProperties w itemVS.itemEntry itemVS.itemRandomPropertyId.toInt32=
      (itemVS.itemRandomPropertyId.toInt32,itemVS.itemSuffixFactor)

/-- An item that is found may be withdrawn. -/
def WithdrawOk (w : World) (p : Player) (id : ℕ) : Prop :=
  ∀ x∈p.getVoidStorageItem id, PlaceOk w p x.2 (w.canStoreNewItem p.items x.2.itemEntry)

/-- The player after the deposits are paid for. -/
def paid (p : Player) (t : Transfer) : Player :=
  (p.depositAll t).1.pay (.ofNat ((p.depositAll t).2*VOID_STORAGE_STORE_ITEM))

/-- A transfer is lawful: each deposit and each withdrawal is, and the player pays the fee for
each deposit; if it is refused, nothing changes. -/
def TransferLaw (w : World) (p : Player) (t : Transfer) : Prop :=
  match p.handleVoidStorageTransfer w t with
  | (p',.changes) =>
    RunInvariant.Meets depositTurn DepositLaw (p,0) t.itemGuids ∧
      RunInvariant.Meets (withdrawStep w) (WithdrawLaw w) (paid p t) t.itemIds ∧
      p'.money.toNat+(p.depositAll t).2*VOID_STORAGE_STORE_ITEM=p.money.toNat
  | (p',_) => Same p p'

/-- There is no room for the first item that is found. -/
def FirstRefused (w : World) (p : Player) (ids : List ℕ) : Prop :=
  ∃ x∈ids.findSome? p.getVoidStorageItem, w.canStoreNewItem p.items x.2.itemEntry=none

/-- A transfer is refused at once, or does what it is asked, or there is nothing to deposit and
no room for the first item to withdraw. -/
def TransferOk (w : World) (p : Player) (t : Transfer) : Prop :=
  p.refuses t≠none ∨
    (RunInvariant.Meets depositTurn DepositOk (p,0) t.itemGuids ∧
      RunInvariant.Meets (withdrawStep w) (WithdrawOk w) (paid p t) t.itemIds) ∨
    ((∀ guid∈t.itemGuids, p.getItemByGuid guid=none) ∧ FirstRefused w p t.itemIds)

/-- A swap is lawful: it exchanges what is in the slot of the item and in the slot that the
packet names, if there is one. -/
def SwapLaw (p : Player) (s : Swap) : Prop :=
  match p.getVoidStorageItem s.itemId with
  | none => p.handleVoidSwapItem s=p
  | some (oldSlot,itemVS) =>
    if h : (s.npc=true ∧ p.unlocked=true) ∧ s.newSlot.toNat < VOID_STORAGE_MAX_SLOT then
      p.handleVoidSwapItem s=
        { p with voidStorageItems :=
          Function.update (Function.update p.voidStorageItems oldSlot
            (p.voidStorageItems ⟨s.newSlot.toNat,h.2⟩)) ⟨s.newSlot.toNat,h.2⟩ (some itemVS) }
    else p.handleVoidSwapItem s=p

/-- The number of the slot fits 8 bits, or what is left of it names no other slot. -/
def SwapOk (p : Player) (s : Swap) : Prop :=
  s.npc=true → p.unlocked=true → ∀ x∈p.getVoidStorageItem s.itemId,
    s.newSlot.toNat < 256 ∨ VOID_STORAGE_MAX_SLOT ≤ s.newSlot.toNat%256 ∨
      s.newSlot.toNat%256=x.1.val

/-- A request is lawful. -/
def Law (w : World) (p : Player) : Action → Prop
  | .transfer t => TransferLaw w p t
  | .swap s => SwapLaw p s

/-- The condition under which a request is lawful. -/
def Cond (w : World) (p : Player) : Action → Prop
  | .transfer t => TransferOk w p t
  | .swap s => SwapOk p s

instance (s : Player×ℕ) (guid : ℕ) : Decidable (DepositOk s guid) :=
  inferInstanceAs (Decidable (∀ item∈s.1.getItemByGuid guid, item.count=1 ∧
    item.good.creator.toNat < 2^32 ∧ ∀ i∈s.1.items, inside item i=true → i.pos=item.pos))

instance (w : World) (p : Player) (itemVS : VoidStorageItem) :
    (place : Option Place) → Decidable (PlaceOk w p itemVS place)
  | none => isFalse id
  | some (.stack guid) =>
    inferInstanceAs (Decidable (∀ i∈p.getItemByGuid guid, i.good=itemVS.good))
  | some (.empty _) =>
    inferInstanceAs (Decidable (setItemRandomProperties w itemVS.itemEntry
      itemVS.itemRandomPropertyId.toInt32=
        (itemVS.itemRandomPropertyId.toInt32,itemVS.itemSuffixFactor)))

instance (w : World) (p : Player) (id : ℕ) : Decidable (WithdrawOk w p id) :=
  inferInstanceAs (Decidable (∀ x∈p.getVoidStorageItem id,
    PlaceOk w p x.2 (w.canStoreNewItem p.items x.2.itemEntry)))

instance (w : World) (p : Player) (ids : List ℕ) : Decidable (FirstRefused w p ids) :=
  inferInstanceAs (Decidable (∃ x∈ids.findSome? p.getVoidStorageItem,
    w.canStoreNewItem p.items x.2.itemEntry=none))

instance (w : World) (p : Player) (t : Transfer) : Decidable (TransferOk w p t) := by
  unfold TransferOk
  infer_instance

instance (p : Player) (s : Swap) : Decidable (SwapOk p s) := by
  unfold SwapOk
  infer_instance

instance (w : World) (p : Player) : (a : Action) → Decidable (Cond w p a)
  | .transfer t => inferInstanceAs (Decidable (TransferOk w p t))
  | .swap s => inferInstanceAs (Decidable (SwapOk p s))

section Withdraw

variable {w : World} {p : Player} {id : ℕ}

/-- The record is in the slot where it is found. -/
theorem getVoidStorageItem_some {x : VoidSlot×VoidStorageItem}
    (h : p.getVoidStorageItem id=some x) :
    p.voidStorageItems x.1=some x.2 ∧ x.2.itemId=id := by
  obtain ⟨i,-,hi⟩ := List.exists_of_findSome?_eq_some h
  cases hitem : p.voidStorageItems i with
  | none =>
    rw [hitem] at hi
    cases hi
  | some item =>
    rw [hitem] at hi
    dsimp only at hi
    split_ifs at hi with hid
    rw [← Option.some.inj hi]
    exact ⟨hitem,hid⟩

/-- The units where a stack grows by one and gets another creator. -/
theorem units_replace {items : List Item} (h : (items.map Item.guid).Nodup) {i b : Item}
    (hb : lookup Item.guid b.guid items=some i) (g : Good) :
    units (replace Item.guid b items) g+(if i.good=g then i.count else 0)=
      units items g+if b.good=g then b.count else 0 :=
  sum_replace (fun i : Item => if i.good=g then i.count else 0) h hb

theorem units_append (items : List Item) (b : Item) (g : Good) :
    units (items++[b]) g=units items g+if b.good=g then b.count else 0 := by
  simp only [units,List.map_append,List.map_singleton,List.sum_append,List.sum_singleton]

/-- A unit on a stack is a unit of the kind of the record just where the stack is of that
kind. -/
theorem store_stack_iff (h : p.Wf) {i : Item} {guid : ℕ} {itemVS : VoidStorageItem}
    (hi : p.getItemByGuid guid=some i) :
    (∀ g, units (p.storeNewItem w (.stack guid) itemVS).items g=
      units p.items g+if g=itemVS.good then 1 else 0) ↔ i.good=itemVS.good := by
  have hguid : i.guid=guid := key_of_lookup hi
  have hcount : 0 < i.count := h.counts i (mem_of_lookup hi)
  have hlookup : lookup Item.guid i.guid p.items=some i := by rw [hguid]; exact hi
  have hunits := fun g => units_replace h.guids (i := i)
    (b := { i with good := { i.good with creator := itemVS.creatorGuid.toUInt64 },
                   count := i.count+1 }) hlookup g
  unfold storeNewItem
  simp only [hi]
  constructor
  · intro hlaw
    have hg := hunits i.good
    rw [hlaw i.good,if_pos rfl] at hg
    by_contra hne
    rw [if_neg hne] at hg
    dsimp only at hg
    split_ifs at hg with hsame
    · omega
    · omega
  · intro hgood g
    have hsame : ({ i.good with creator := itemVS.creatorGuid.toUInt64 } : Good)=i.good := by
      rw [hgood]
      rfl
    have hg := hunits g
    rw [hsame] at hg ⊢
    rw [hgood] at hg ⊢
    dsimp only at hg
    by_cases he : g=itemVS.good
    · rw [if_pos he.symm,if_pos he.symm] at hg
      rw [if_pos he]
      omega
    · rw [if_neg (Ne.symm he),if_neg (Ne.symm he)] at hg
      rw [if_neg he]
      omega

/-- A new item is of the kind of the record just where it gets its random property again. -/
theorem store_empty_iff {pos : ℕ×ℕ} {itemVS : VoidStorageItem} :
    (∀ g, units (p.storeNewItem w (.empty pos) itemVS).items g=
      units p.items g+if g=itemVS.good then 1 else 0) ↔
      setItemRandomProperties w itemVS.itemEntry itemVS.itemRandomPropertyId.toInt32=
        (itemVS.itemRandomPropertyId.toInt32,itemVS.itemSuffixFactor) := by
  unfold storeNewItem
  simp only [units_append]
  constructor
  · intro hlaw
    have hg := hlaw itemVS.good
    rw [if_pos rfl] at hg
    split_ifs at hg with hsame
    · unfold VoidStorageItem.good at hsame
      rw [Good.mk.injEq] at hsame
      exact Prod.ext hsame.2.2.1 hsame.2.2.2
    · omega
  · intro hmade g
    rw [hmade]
    exact congrArg _ (if_congr eq_comm rfl rfl)

theorem storeNewItem_keeps (w : World) (p : Player) (place : Place) (itemVS : VoidStorageItem) :
    (p.storeNewItem w place itemVS).voidStorageItems=p.voidStorageItems ∧
      (p.storeNewItem w place itemVS).money=p.money ∧
      (p.storeNewItem w place itemVS).nextItemId=p.nextItemId := by
  unfold storeNewItem
  cases place with
  | empty pos => exact ⟨rfl,rfl,rfl⟩
  | stack guid =>
    dsimp only
    cases p.getItemByGuid guid with
    | none => exact ⟨rfl,rfl,rfl⟩
    | some i => exact ⟨rfl,rfl,rfl⟩

theorem withdrawStep_of_ok {p' : Player} (h : withdrawTurn w p id=.ok p') :
    withdrawStep w p id=p' := by
  rw [withdrawStep,h]

theorem withdrawStep_cases (w : World) (p : Player) (id : ℕ) :
    (Storable w p id ∧ p.getVoidStorageItem id=none ∧ withdrawTurn w p id=.ok p) ∨
      (∃ x, p.getVoidStorageItem id=some x ∧ ¬Storable w p id ∧
        w.canStoreNewItem p.items x.2.itemEntry=none ∧ withdrawTurn w p id=.error p) ∨
      ∃ x place, p.getVoidStorageItem id=some x ∧ Storable w p id ∧
        w.canStoreNewItem p.items x.2.itemEntry=some place ∧
        withdrawTurn w p id=.ok (p.withdraw w place x.1 x.2) := by
  unfold Storable withdrawTurn
  cases hget : p.getVoidStorageItem id with
  | none => exact .inl ⟨(by rintro _ ⟨⟩),rfl,rfl⟩
  | some x =>
    simp only [Option.mem_def,Option.some.injEq,forall_eq']
    cases hplace : w.canStoreNewItem p.items x.2.itemEntry with
    | none => exact .inr (.inl ⟨x,rfl,not_not.mpr rfl,hplace,rfl⟩)
    | some place => exact .inr (.inr ⟨x,place,rfl,Option.some_ne_none place,hplace,rfl⟩)

/-- A withdrawal that is not refused is lawful just where the unit is stored as the record
says. -/
theorem withdrawLaw_iff (h : p.Wf) (hstorable : Storable w p id) :
    WithdrawLaw w p id ↔ WithdrawOk w p id := by
  unfold WithdrawLaw WithdrawOk withdrawStep PlaceOk
  rcases withdrawStep_cases w p id with ⟨-,hget,hturn⟩ | ⟨x,-,hno,-⟩ |
    ⟨x,place,hget,-,hplace,hturn⟩
  · rw [hget,hturn]
    exact iff_of_true ⟨rfl,rfl,rfl⟩ (by rintro _ ⟨⟩)
  · exact absurd hstorable hno
  obtain ⟨hvoid,hmoney,-⟩ := storeNewItem_keeps w p place x.2
  rw [hget,hturn]
  simp only [Option.mem_def,Option.some.injEq,forall_eq',hplace]
  have hkeeps : (p.withdraw w place x.1 x.2).voidStorageItems=
      Function.update p.voidStorageItems x.1 none ∧
      (p.withdraw w place x.1 x.2).money=p.money := by
    unfold withdraw deleteVoidStorageItem
    exact ⟨by rw [hvoid],hmoney⟩
  rw [and_iff_left hkeeps]
  show (∀ g, units (p.storeNewItem w place x.2).items g=_) ↔ _
  cases place with
  | empty pos => exact store_empty_iff
  | stack guid =>
    obtain ⟨i,hi,-⟩ := w.stack_there hplace
    have hfound : p.getItemByGuid guid=some i := hi
    simp only [hfound,Option.some.injEq,forall_eq']
    exact store_stack_iff h hfound

/-- A stored unit keeps the guids and the places apart. -/
theorem Player.Wf.storeNewItem (h : p.Wf) {entry : UInt32} {place : Place}
    (itemVS : VoidStorageItem) (hplace : w.canStoreNewItem p.items entry=some place) :
    (p.storeNewItem w place itemVS).Wf := by
  cases place with
  | stack guid =>
    obtain ⟨i,hi,-⟩ := w.stack_there hplace
    have hfound : p.getItemByGuid guid=some i := hi
    have hguid : i.guid=guid := key_of_lookup hi
    have hmem : i∈p.items := mem_of_lookup hi
    have hlookup : lookup Item.guid i.guid p.items=some i := by rw [hguid]; exact hi
    unfold Player.storeNewItem
    simp only [hfound]
    refine ⟨?_,?_,fun j hj => ?_,fun j hj => ?_,h.ids,h.freshIds⟩
    · rw [map_key_replace]
      exact h.guids
    · have hplaces := map_replace Item.pos h.guids (a := i)
        (b := { i with good := { i.good with creator := itemVS.creatorGuid.toUInt64 },
                       count := i.count+1 }) hlookup rfl
      exact hplaces ▸ h.places
    · rcases mem_of_mem_replace hj with rfl | hj
      · exact Nat.succ_pos _
      · exact h.counts j hj
    · rcases mem_of_mem_replace hj with rfl | hj
      · exact (h.fresh i hmem).trans (Nat.lt_succ_self _)
      · exact (h.fresh j hj).trans (Nat.lt_succ_self _)
  | empty pos =>
    unfold Player.storeNewItem
    have hnew : p.nextGuid∉p.items.map Item.guid := fun hmem => by
      obtain ⟨i,hi,he⟩ := List.mem_map.mp hmem
      exact absurd (h.fresh i hi) (by rw [he]; exact Nat.lt_irrefl _)
    have hpos : pos∉p.items.map Item.pos := fun hmem => by
      obtain ⟨i,hi,he⟩ := List.mem_map.mp hmem
      exact w.place_empty hplace i hi he
    refine ⟨?_,?_,fun j hj => ?_,fun j hj => ?_,h.ids,h.freshIds⟩
    · rw [List.map_append]
      exact List.nodup_append.mpr ⟨h.guids,List.nodup_singleton _,fun a ha b hb he =>
        hnew (by rwa [he,List.mem_singleton.mp hb] at ha)⟩
    · rw [List.map_append]
      exact List.nodup_append.mpr ⟨h.places,List.nodup_singleton _,fun a ha b hb he =>
        hpos (by rwa [he,List.mem_singleton.mp hb] at ha)⟩
    · rcases List.mem_append.mp hj with hj | hj
      · exact h.counts j hj
      · rw [List.mem_singleton.mp hj]
        exact Nat.one_pos
    · rcases List.mem_append.mp hj with hj | hj
      · exact Nat.lt_succ_of_lt (h.fresh j hj)
      · rw [List.mem_singleton.mp hj]
        exact Nat.lt_succ_self _

/-- An emptied slot keeps the ids apart. -/
theorem Player.Wf.deleteVoidStorageItem (h : p.Wf) (slot : VoidSlot) :
    (p.deleteVoidStorageItem slot).Wf := by
  have hold : ∀ i r, Function.update p.voidStorageItems slot none i=some r →
      p.voidStorageItems i=some r := by
    intro i r hr
    by_cases hi : i=slot
    · rw [hi,Function.update_self] at hr
      cases hr
    · rwa [Function.update_of_ne hi] at hr
  exact ⟨h.guids,h.places,h.counts,h.fresh,
    fun i j r r' hr hr' => h.ids i j r r' (hold i r hr) (hold j r' hr'),
    fun i r hr => h.freshIds i r (hold i r hr)⟩

/-- A turn of the loop keeps the guids, the places and the ids apart, the money, and the slots
that are empty. -/
theorem Player.Wf.withdrawStep (h : p.Wf) (w : World) (id : ℕ) :
    (VoidStorageModel.withdrawStep w p id).Wf ∧
      (VoidStorageModel.withdrawStep w p id).money=p.money ∧
      ∀ slot, p.voidStorageItems slot=none →
        (VoidStorageModel.withdrawStep w p id).voidStorageItems slot=none := by
  unfold VoidStorageModel.withdrawStep
  rcases withdrawStep_cases w p id with ⟨-,-,hturn⟩ | ⟨x,-,-,-,hturn⟩ |
    ⟨x,place,-,-,hplace,hturn⟩
  · rw [hturn]
    exact ⟨h,rfl,fun _ hslot => hslot⟩
  · rw [hturn]
    exact ⟨h,rfl,fun _ hslot => hslot⟩
  obtain ⟨hvoid,hmoney,-⟩ := storeNewItem_keeps w p place x.2
  rw [hturn]
  refine ⟨(h.storeNewItem x.2 hplace).deleteVoidStorageItem x.1,hmoney,fun slot hslot => ?_⟩
  show Function.update (p.storeNewItem w place x.2).voidStorageItems x.1 none slot=none
  rw [hvoid]
  by_cases he : slot=x.1
  · rw [he,Function.update_self]
  · rwa [Function.update_of_ne he]

end Withdraw

section Withdrawals

variable {w : World} {p p' : Player} {ids : List ℕ}

/-- The loop comes to its end just where no turn is refused. -/
theorem withdrawAll_ok (hm : RunInvariant.Meets (withdrawStep w) (Storable w) p ids) :
    withdrawAll w p ids=.ok (RunInvariant.run (withdrawStep w) p ids) := by
  induction ids generalizing p with
  | nil => rfl
  | cons id ids ih =>
    obtain ⟨hstorable,hrest⟩ := hm
    have hnext := ih hrest
    unfold withdrawAll RunInvariant.run
    rcases withdrawStep_cases w p id with ⟨-,-,hturn⟩ | ⟨x,-,hno,-⟩ | ⟨x,place,-,-,-,hturn⟩
    · rw [withdrawStep_of_ok hturn] at hnext ⊢
      rw [hturn]
      exact hnext
    · exact absurd hstorable hno
    · rw [withdrawStep_of_ok hturn] at hnext ⊢
      rw [hturn]
      exact hnext

theorem meets_of_withdrawAll (h : withdrawAll w p ids=.ok p') :
    RunInvariant.Meets (withdrawStep w) (Storable w) p ids := by
  induction ids generalizing p with
  | nil => trivial
  | cons id ids ih =>
    unfold withdrawAll at h
    rcases withdrawStep_cases w p id with ⟨hs,-,hturn⟩ | ⟨x,-,-,-,hturn⟩ |
      ⟨x,place,-,hs,-,hturn⟩
    · rw [hturn] at h
      refine ⟨hs,?_⟩
      rw [withdrawStep_of_ok hturn]
      exact ih h
    · rw [hturn] at h
      cases h
    rw [hturn] at h
    refine ⟨hs,?_⟩
    rw [withdrawStep_of_ok hturn]
    exact ih h

/-- A refusal of the first item that is found changes nothing. -/
theorem withdrawAll_firstRefused (h : FirstRefused w p ids) : withdrawAll w p ids=.error p := by
  induction ids with
  | nil =>
    obtain ⟨x,hx,-⟩ := h
    cases hx
  | cons id ids ih =>
    obtain ⟨x,hx,hrefused⟩ := h
    unfold withdrawAll
    rw [Option.mem_def,List.findSome?_cons] at hx
    rcases withdrawStep_cases w p id with ⟨-,hget,hturn⟩ | ⟨y,hget,-,-,hturn⟩ |
      ⟨y,place,hget,-,hplace,hturn⟩
    · rw [hget] at hx
      rw [hturn]
      exact ih ⟨x,hx,hrefused⟩
    · rw [hturn]
    · rw [hget] at hx
      rw [Option.some.inj hx,hrefused] at hplace
      cases hplace

/-- A refusal after a withdrawal leaves a slot empty that was used. -/
theorem withdrawAll_error (h : p.Wf) (hall : withdrawAll w p ids=.error p') :
    (FirstRefused w p ids ∨
        ∃ slot, p.voidStorageItems slot≠none ∧ p'.voidStorageItems slot=none) ∧
      (∀ slot, p.voidStorageItems slot=none → p'.voidStorageItems slot=none) ∧
      p'.money=p.money ∧ p'.Wf := by
  induction ids generalizing p with
  | nil => cases hall
  | cons id ids ih =>
    unfold withdrawAll at hall
    rcases withdrawStep_cases w p id with ⟨-,hget,hturn⟩ | ⟨x,hget,-,hrefused,hturn⟩ |
      ⟨x,place,hget,-,hplace,hturn⟩
    · rw [hturn] at hall
      obtain ⟨hor,hkeep⟩ := ih h hall
      refine ⟨hor.imp (fun hfirst => ?_) fun hslot => hslot,hkeep⟩
      obtain ⟨x,hx,hrefused⟩ := hfirst
      refine ⟨x,?_,hrefused⟩
      rw [Option.mem_def,List.findSome?_cons,hget]
      exact hx
    · rw [hturn] at hall
      have hp : p=p' := Except.error.inj hall
      subst hp
      refine ⟨.inl ⟨x,?_,hrefused⟩,fun _ hslot => hslot,rfl,h⟩
      rw [Option.mem_def,List.findSome?_cons,hget]
    · obtain ⟨hwf,hmoney,hnone⟩ := h.withdrawStep w id
      rw [withdrawStep_of_ok hturn] at hwf hmoney hnone
      rw [hturn] at hall
      obtain ⟨-,hrest,hmoney',hwf'⟩ := ih hwf hall
      refine ⟨.inr ⟨x.1,?_,hrest x.1 ?_⟩,fun slot hslot => hrest slot (hnone slot hslot),
        hmoney'.trans hmoney,hwf'⟩
      · rw [(getVoidStorageItem_some hget).1]
        exact Option.some_ne_none _
      · exact Function.update_self ..

/-- The withdrawals cost nothing. -/
theorem withdrawals_keep (h : p.Wf) (w : World) (ids : List ℕ) :
    (RunInvariant.run (withdrawStep w) p ids).Wf ∧
      (RunInvariant.run (withdrawStep w) p ids).money=p.money :=
  RunInvariant.run_invariant_always (I := fun p' : Player => p'.Wf ∧ p'.money=p.money)
    (fun _ id hs => ⟨(hs.1.withdrawStep w id).1,(hs.1.withdrawStep w id).2.1.trans hs.2⟩)
    ⟨h,rfl⟩ ids

end Withdrawals

section Requests

variable {w : World} {p : Player}

/-- What the handler has checked when it goes on. -/
theorem refuses_none {t : Transfer} (h : p.refuses t=none) :
    t.itemGuids.length ≤ VOID_STORAGE_MAX_DEPOSIT ∧
      t.itemGuids.length ≤ p.getNumOfVoidStorageFreeSlots ∧
      t.itemGuids.length*VOID_STORAGE_STORE_ITEM ≤ p.money.toNat := by
  unfold refuses at h
  split_ifs at h with hcounts hnpc hfree hbags hmoney
  obtain ⟨hdeposits,-⟩ := not_or.mp hcounts
  refine ⟨not_lt.mp hdeposits,not_lt.mp hfree,?_⟩
  have hle : UInt64.ofNat (t.itemGuids.length*VOID_STORAGE_STORE_ITEM) ≤ p.money := by
    simpa [hasEnoughMoney] using hmoney
  rw [UInt64.le_iff_toNat_le,UInt64.toNat_ofNat'] at hle
  unfold VOID_STORAGE_MAX_DEPOSIT at hdeposits
  unfold VOID_STORAGE_STORE_ITEM at hle ⊢
  omega

theorem refuses_ne_changes (p : Player) (t : Transfer) : p.refuses t≠some .changes := by
  unfold refuses
  split_ifs <;> rintro ⟨⟩

theorem Player.Wf.pay (h : p.Wf) (cost : UInt64) : (p.pay cost).Wf :=
  ⟨h.guids,h.places,h.counts,h.fresh,h.ids,h.freshIds⟩

theorem paid_spec (h : p.Wf) {t : Transfer} (hrefuses : p.refuses t=none) :
    (p.depositAll t).1.hasEnoughMoney (.ofNat ((p.depositAll t).2*VOID_STORAGE_STORE_ITEM))=true ∧
      (paid p t).money.toNat+(p.depositAll t).2*VOID_STORAGE_STORE_ITEM=p.money.toNat ∧
      (paid p t).Wf := by
  obtain ⟨hmax,hfree,hmoney⟩ := refuses_none hrefuses
  obtain ⟨hwf,hkeep⟩ := deposits_keep (s := (p,0)) h hfree
  obtain ⟨-,hcount⟩ := deposits_count (p,0) t.itemGuids
  have hcount : (p.depositAll t).2 ≤ t.itemGuids.length := by
    rw [Nat.zero_add] at hcount
    exact hcount
  have hkeep : (p.depositAll t).1.money=p.money := hkeep
  have hwf : (p.depositAll t).1.Wf := hwf
  have hcost : (UInt64.ofNat ((p.depositAll t).2*VOID_STORAGE_STORE_ITEM)).toNat=
      (p.depositAll t).2*VOID_STORAGE_STORE_ITEM := by
    rw [UInt64.toNat_ofNat']
    unfold VOID_STORAGE_MAX_DEPOSIT at hmax
    unfold VOID_STORAGE_STORE_ITEM
    omega
  have hle : (p.depositAll t).2*VOID_STORAGE_STORE_ITEM ≤ p.money.toNat :=
    (Nat.mul_le_mul_right _ hcount).trans hmoney
  have henough : UInt64.ofNat ((p.depositAll t).2*VOID_STORAGE_STORE_ITEM) ≤
      (p.depositAll t).1.money := by
    rw [UInt64.le_iff_toNat_le,hcost,hkeep]
    exact hle
  have hsmall : (UInt64.ofNat ((p.depositAll t).2*VOID_STORAGE_STORE_ITEM)).toNat ≤ 2^63 := by
    rw [hcost]
    unfold VOID_STORAGE_MAX_DEPOSIT at hmax
    unfold VOID_STORAGE_STORE_ITEM
    omega
  refine ⟨decide_eq_true henough,?_,hwf.pay _⟩
  unfold paid pay
  rw [ModifyMoney_debit henough hsmall,UInt64.toNat_sub_of_le _ _ henough,hcost,hkeep]
  omega

/-- Where no item of the request is found, nothing is paid. -/
theorem paid_none {t : Transfer} (h : ∀ guid∈t.itemGuids, p.getItemByGuid guid=none) :
    paid p t=p := by
  have hnone : p.depositAll t=(p,0) := (deposits_none (p,0) t.itemGuids).2 h
  have hpay : ModifyMoney p.money (-(UInt64.ofNat 0).toInt64)=(p.money,true) := rfl
  unfold paid
  rw [hnone,Nat.zero_mul]
  unfold pay
  rw [hpay]

/-- What the handler answers when nothing refuses at first. -/
theorem handleVoidStorageTransfer_of_none (h : p.Wf) {t : Transfer}
    (hrefuses : p.refuses t=none) :
    p.handleVoidStorageTransfer w t=
      match withdrawAll w (paid p t) t.itemIds with
      | .error p' => (p',.inventoryFull)
      | .ok p' => (p',.changes) := by
  have henough := (paid_spec h hrefuses).1
  unfold handleVoidStorageTransfer
  rw [hrefuses]
  dsimp only
  rw [henough,if_neg (by decide)]
  rfl

/-- A transfer is lawful just where the condition holds. -/
theorem transferLaw_iff (h : p.Wf) (t : Transfer) : TransferLaw w p t ↔ TransferOk w p t := by
  unfold TransferLaw TransferOk
  cases hrefuses : p.refuses t with
  | some reply =>
    refine iff_of_true ?_ (.inl (Option.some_ne_none _))
    have hhandle : p.handleVoidStorageTransfer w t=(p,reply) := by
      unfold handleVoidStorageTransfer
      rw [hrefuses]
    rw [hhandle]
    cases reply with
    | changes => exact absurd hrefuses (refuses_ne_changes p t)
    | _ => exact ⟨rfl,rfl,rfl⟩
  | none =>
    obtain ⟨-,hmoney,hwf⟩ := paid_spec h hrefuses
    obtain ⟨-,hfree,-⟩ := refuses_none hrefuses
    have hdeposits := deposits_lawful_iff (s := (p,0)) h hfree
    rw [handleVoidStorageTransfer_of_none h hrefuses]
    cases hall : withdrawAll w (paid p t) t.itemIds with
    | ok p' =>
      have hstorable := meets_of_withdrawAll hall
      have hwithdraw := RunInvariant.meets_congr (I := fun p : Player => p.Wf)
        (fun _ id hs _ => (hs.withdrawStep w id).1) (fun _ _ hs hok => withdrawLaw_iff hs hok)
        hwf hstorable
      have hp' : p'=RunInvariant.run (withdrawStep w) (paid p t) t.itemIds :=
        Except.ok.inj (hall.symm.trans (withdrawAll_ok hstorable))
      have hpaid : p'.money.toNat+(p.depositAll t).2*VOID_STORAGE_STORE_ITEM=p.money.toNat := by
        rw [hp',(withdrawals_keep hwf w t.itemIds).2]
        exact hmoney
      have hnot : ¬((∀ guid∈t.itemGuids, p.getItemByGuid guid=none) ∧
          FirstRefused w p t.itemIds) := by
        rintro ⟨hnone,hfirst⟩
        rw [paid_none hnone,withdrawAll_firstRefused hfirst] at hall
        cases hall
      dsimp only
      rw [hdeposits,hwithdraw,and_iff_left hpaid,or_iff_left hnot]
      exact (or_iff_right (not_not.mpr rfl)).symm
    | error p' =>
      obtain ⟨hor,-,hkeep,-⟩ := withdrawAll_error hwf hall
      dsimp only
      constructor
      · rintro ⟨-,hvoid,hpaid⟩
        have hzero : (p.depositAll t).2=0 := by
          rw [← hkeep,hpaid] at hmoney
          unfold VOID_STORAGE_STORE_ITEM at hmoney
          omega
        have hnone := (deposits_none (p,0) t.itemGuids).1.mp hzero
        rw [paid_none hnone] at hor
        refine .inr (.inr ⟨hnone,hor.resolve_right ?_⟩)
        rintro ⟨slot,hsome,hempty⟩
        exact hsome (congrFun hvoid slot ▸ hempty)
      · rintro (hne | ⟨-,hok⟩ | ⟨hnone,hfirst⟩)
        · exact absurd rfl hne
        · have hstorable : RunInvariant.Meets (withdrawStep w) (Storable w) (paid p t)
              t.itemIds := hok.imp fun q id hq x hx hrefused => by
            have hstored := hq x hx
            rw [hrefused] at hstored
            exact hstored
          rw [withdrawAll_ok hstorable] at hall
          cases hall
        · rw [paid_none hnone,withdrawAll_firstRefused hfirst] at hall
          rw [← Except.error.inj hall]
          exact ⟨rfl,rfl,rfl⟩

/-- The slots after a swap. -/
theorem swapVoidStorageItem_some {oldSlot newSlot : UInt8} {old new : VoidSlot}
    (hold : oldSlot.toNat=old.val) (hnew : newSlot.toNat=new.val) (hne : old≠new) :
    p.swapVoidStorageItem oldSlot newSlot=
      some { p with voidStorageItems := p.voidStorageItems ∘ Equiv.swap old new } := by
  have hslots : oldSlot.toNat < VOID_STORAGE_MAX_SLOT ∧ newSlot.toNat < VOID_STORAGE_MAX_SLOT ∧
      oldSlot≠newSlot := by
    refine ⟨hold ▸ old.isLt,hnew ▸ new.isLt,fun he => hne (Fin.ext ?_)⟩
    rw [← hold,← hnew,he]
  unfold swapVoidStorageItem
  rw [dif_pos hslots,Equiv.comp_swap_eq_update]
  have hold' : (⟨oldSlot.toNat,hslots.1⟩ : VoidSlot)=old := Fin.ext hold
  have hnew' : (⟨newSlot.toNat,hslots.2.1⟩ : VoidSlot)=new := Fin.ext hnew
  simp only [hold',hnew']

theorem swapVoidStorageItem_none {oldSlot newSlot : UInt8}
    (h : VOID_STORAGE_MAX_SLOT ≤ newSlot.toNat ∨ newSlot.toNat=oldSlot.toNat) :
    p.swapVoidStorageItem oldSlot newSlot=none := by
  refine dif_neg fun hslots => ?_
  rcases h with hmax | hsame
  · exact absurd hslots.2.1 (not_lt.mpr hmax)
  · exact hslots.2.2 (UInt8.toNat_inj.mp hsame).symm

/-- What a swap does where the player may ask for it and the item is found. -/
theorem handleVoidSwapItem_of_some {s : Swap} {x : VoidSlot×VoidStorageItem}
    (hplayer : s.npc=true ∧ p.unlocked=true) (hget : p.getVoidStorageItem s.itemId=some x) :
    p.handleVoidSwapItem s=
      (p.swapVoidStorageItem (.ofNat x.1.val) s.newSlot.toUInt8).getD p := by
  unfold handleVoidSwapItem
  rw [hplayer.1,hplayer.2,if_neg (by decide),hget]

theorem handleVoidSwapItem_of_not {s : Swap} (hplayer : ¬(s.npc=true ∧ p.unlocked=true)) :
    p.handleVoidSwapItem s=p := by
  refine if_pos ?_
  by_contra hno
  simp only [Bool.or_eq_true,Bool.not_eq_true',not_or,Bool.not_eq_false] at hno
  exact hplayer hno

/-- A swap is lawful just where the condition holds. -/
theorem swapLaw_iff (h : p.Wf) (s : Swap) : SwapLaw p s ↔ SwapOk p s := by
  unfold SwapLaw SwapOk
  cases hget : p.getVoidStorageItem s.itemId with
  | none =>
    refine iff_of_true ?_ fun _ _ => by rintro _ ⟨⟩
    unfold handleVoidSwapItem
    rw [hget]
    exact ite_self p
  | some x =>
    obtain ⟨old,itemVS⟩ := x
    by_cases hplayer : s.npc=true ∧ p.unlocked=true
    swap
    · refine iff_of_true ?_ fun hnpc hunlocked => absurd ⟨hnpc,hunlocked⟩ hplayer
      dsimp only
      rw [dif_neg fun hboth : _ ∧ _ => hplayer hboth.1]
      exact handleVoidSwapItem_of_not hplayer
    have hslot : p.voidStorageItems old=some itemVS := (getVoidStorageItem_some hget).1
    have hold : (UInt8.ofNat old.val).toNat=old.val := by
      rw [UInt8.toNat_ofNat']
      exact Nat.mod_eq_of_lt (old.isLt.trans (by decide))
    have hnew : s.newSlot.toUInt8.toNat=s.newSlot.toNat%256 := UInt32.toNat_toUInt8 _
    rw [forall_prop_of_true hplayer.1,forall_prop_of_true hplayer.2]
    simp only [handleVoidSwapItem_of_some hplayer hget,Option.mem_def,Option.some.injEq,
      forall_eq']
    by_cases hlt : s.newSlot.toNat < VOID_STORAGE_MAX_SLOT
    · have hfit : s.newSlot.toNat < 256 := hlt.trans (by decide)
      rw [dif_pos ⟨hplayer,hlt⟩]
      refine iff_of_true ?_ (.inl hfit)
      rw [Nat.mod_eq_of_lt hfit] at hnew
      by_cases hsame : s.newSlot.toNat=old.val
      · rw [swapVoidStorageItem_none (.inr (by rw [hnew,hold,hsame]))]
        have hslots : (⟨s.newSlot.toNat,hlt⟩ : VoidSlot)=old := Fin.ext hsame
        rw [hslots,Function.update_eq_self,← hslot,Function.update_eq_self]
        rfl
      · have hne : old≠⟨s.newSlot.toNat,hlt⟩ := fun he => hsame (congrArg Fin.val he).symm
        rw [swapVoidStorageItem_some hold hnew hne,Equiv.comp_swap_eq_update,hslot,
          Function.update_comm hne.symm]
        rfl
    · rw [dif_neg fun hboth : _ ∧ _ => hlt hboth.2]
      rcases lt_or_ge (s.newSlot.toNat%256) VOID_STORAGE_MAX_SLOT with hcut | hcut
      · have hbig : ¬s.newSlot.toNat < 256 := fun hfit =>
          hlt (by rwa [Nat.mod_eq_of_lt hfit] at hcut)
        by_cases hsame : s.newSlot.toNat%256=old.val
        · rw [swapVoidStorageItem_none (.inr (by rw [hnew,hold,hsame]))]
          exact iff_of_true rfl (.inr (.inr hsame))
        have hne : old≠⟨s.newSlot.toNat%256,hcut⟩ :=
          fun he => hsame (congrArg Fin.val he).symm
        rw [swapVoidStorageItem_some hold hnew hne]
        refine iff_of_false (fun hp => hne ?_) ?_
        · -- the item of the packet is no longer in its slot
          have hmoved : p.voidStorageItems (Equiv.swap old ⟨s.newSlot.toNat%256,hcut⟩ old)=
              p.voidStorageItems old :=
            congrFun (congrArg Player.voidStorageItems hp) old
          rw [Equiv.swap_apply_left,hslot] at hmoved
          exact h.ids _ _ _ _ hslot hmoved rfl
        · rintro (hfit | hmax | he)
          · exact hbig hfit
          · exact absurd hcut (not_lt.mpr hmax)
          · exact hsame he
      · rw [swapVoidStorageItem_none (.inl (by rwa [hnew]))]
        exact iff_of_true rfl (.inr (.inl hcut))

/-- A request keeps the guids, the places and the ids apart. -/
theorem Player.Wf.step (h : p.Wf) (w : World) (a : Action) : (Player.step w p a).Wf := by
  cases a with
  | transfer t =>
    show (p.handleVoidStorageTransfer w t).1.Wf
    cases hrefuses : p.refuses t with
    | some reply =>
      unfold handleVoidStorageTransfer
      rw [hrefuses]
      exact h
    | none =>
      obtain ⟨-,-,hwf⟩ := paid_spec h hrefuses
      rw [handleVoidStorageTransfer_of_none h hrefuses]
      cases hall : withdrawAll w (paid p t) t.itemIds with
      | error p' => exact (withdrawAll_error hwf hall).2.2.2
      | ok p' =>
        have hp' := hall.symm.trans (withdrawAll_ok (meets_of_withdrawAll hall))
        rw [Except.ok.inj hp']
        exact (withdrawals_keep hwf w t.itemIds).1
  | swap s =>
    show (p.handleVoidSwapItem s).Wf
    by_cases hplayer : s.npc=true ∧ p.unlocked=true
    swap
    · rw [handleVoidSwapItem_of_not hplayer]
      exact h
    cases hget : p.getVoidStorageItem s.itemId with
    | none =>
      have hsame : p.handleVoidSwapItem s=p := by
        unfold handleVoidSwapItem
        rw [hget]
        exact ite_self p
      rw [hsame]
      exact h
    | some x =>
      rw [handleVoidSwapItem_of_some hplayer hget]
      have hold : (UInt8.ofNat x.1.val).toNat=x.1.val := by
        rw [UInt8.toNat_ofNat']
        exact Nat.mod_eq_of_lt (x.1.isLt.trans (by decide))
      rcases lt_or_ge s.newSlot.toUInt8.toNat VOID_STORAGE_MAX_SLOT with hcut | hcut
      · by_cases hsame : s.newSlot.toUInt8.toNat=x.1.val
        · rw [swapVoidStorageItem_none (.inr (hsame.trans hold.symm))]
          exact h
        have hne : x.1≠⟨s.newSlot.toUInt8.toNat,hcut⟩ :=
          fun he => hsame (congrArg Fin.val he).symm
        rw [swapVoidStorageItem_some hold rfl hne]
        refine ⟨h.guids,h.places,h.counts,h.fresh,fun i j r r' hr hr' he => ?_,
          fun i r hr => h.freshIds _ r hr⟩
        exact (Equiv.swap _ _).injective (h.ids _ _ r r' hr hr' he)
      · rw [swapVoidStorageItem_none (.inl hcut)]
        exact h

/-- A request is lawful just where the condition holds. -/
theorem law_iff (h : p.Wf) (a : Action) : Law w p a ↔ Cond w p a :=
  match a with
  | .transfer t => transferLaw_iff h t
  | .swap s => swapLaw_iff h s

/-- Along every run of requests each one is lawful just where each one meets the condition. -/
theorem void_storage_lawful_iff (w : World) (h : p.Wf) (as : List Action) :
    RunInvariant.Meets (Player.step w) (Law w) p as ↔
      RunInvariant.Meets (Player.step w) (Cond w) p as :=
  RunInvariant.meets_congr (I := fun p : Player => p.Wf) (fun _ a hp _ => hp.step w a)
    (fun _ a hp _ => law_iff hp a) h (RunInvariant.meets_of_forall (fun _ _ => trivial) p as)

/-- A server with a backpack alone, where nothing is stacked. -/
def backpackWorld : World where
  canStoreNewItem items _ :=
    ((List.range' INVENTORY_SLOT_ITEM_START 16).find? fun i =>
      items.all fun item => item.pos≠(INVENTORY_SLOT_BAG_0,i)).map fun i =>
        .empty (INVENTORY_SLOT_BAG_0,i)
  stack_there h := by
    obtain ⟨i,-,hi⟩ := Option.map_eq_some_iff.mp h
    cases hi
  place_empty h item hitem := by
    obtain ⟨i,hi,hplace⟩ := Option.map_eq_some_iff.mp h
    rw [← Place.empty.inj hplace]
    have hall := List.find?_some hi
    exact of_decide_eq_true (List.all_eq_true.mp hall item hitem)
  containerSlots _ := 0
  randomProperties _ := false
  randomSuffix _ := false
  generateEnchSuffixFactor _ := 0

/-- A player with a stack in the backpack and a record in the first void slot. -/
def holder (count : ℕ) : Player where
  items := [⟨1,⟨2589,0,0,0⟩,count,(INVENTORY_SLOT_BAG_0,INVENTORY_SLOT_ITEM_START),0⟩]
  voidStorageItems := Function.update (fun _ => none) ⟨0,by decide⟩ (some ⟨0,25,7,0,0⟩)
  money := 1000000
  unlocked := true
  nextGuid := 2
  nextItemId := 1

theorem holder_wf {count : ℕ} (h : 0 < count) : (holder count).Wf := by
  have hzero : ∀ i r, (holder count).voidStorageItems i=some r →
      i=⟨0,by decide⟩ ∧ r.itemId=0 := by
    intro i r hr
    by_cases hi : i=⟨0,by decide⟩
    · rw [hi] at hr
      exact ⟨hi,by rw [← Option.some.inj hr]⟩
    have hnone : (holder count).voidStorageItems i=none := by
      unfold holder
      dsimp only
      rw [Function.update_of_ne hi]
    rw [hnone] at hr
    cases hr
  exact ⟨List.nodup_singleton _,List.nodup_singleton _,
    fun i hi => by rw [List.mem_singleton.mp hi]; exact h,
    fun i hi => by rw [List.mem_singleton.mp hi]; exact Nat.one_lt_two,
    fun i j r r' hr hr' _ => (hzero i r hr).1.trans (hzero j r' hr').1.symm,
    fun i r hr => by rw [(hzero i r hr).2]; exact Nat.zero_lt_one⟩

/-- A record is moved and made an item again, and a single item is put away. -/
theorem void_storage_lawful_single :
    RunInvariant.Meets (Player.step backpackWorld) (Law backpackWorld) (holder 1)
      [.swap ⟨true,0,3⟩,.transfer ⟨true,[1,1],[0]⟩] :=
  (void_storage_lawful_iff backpackWorld (holder_wf Nat.one_pos) _).mpr (by decide)

/-- A stack is put away as one unit, and a swap with slot 259 is one with slot 3. -/
theorem stack_and_far_swap :
    ¬Law backpackWorld (holder 20) (.transfer ⟨true,[1],[]⟩) ∧
      ¬Law backpackWorld (holder 1) (.swap ⟨true,0,259⟩) :=
  ⟨fun h => absurd ((law_iff (holder_wf (Nat.succ_pos 19)) _).mp h) (by decide),
    fun h => absurd ((law_iff (holder_wf Nat.one_pos) _).mp h) (by decide)⟩

end Requests

end Projectnelth.VoidStorageModel
