import Mathlib
import Projectnelth.VoidStorageModel

/-!
# Deposits in the void storage

A record stands for one unit. A deposit should take one whole item away, with nothing else,
and the record should say what the item was.
-/

namespace Projectnelth.VoidStorageModel

open KeyedList PlayerMoney Player

/-- What the void slots and the guids are like. -/
structure Player.Wf (p : Player) : Prop where
  guids : (p.items.map Item.guid).Nodup
  places : (p.items.map Item.pos).Nodup
  /-- A stack has units. -/
  counts : ∀ i∈p.items, 0 < i.count
  fresh : ∀ i∈p.items, i.guid < p.nextGuid
  ids : ∀ i j r r', p.voidStorageItems i=some r → p.voidStorageItems j=some r' →
    VoidStorageItem.itemId r=r'.itemId → i=j
  freshIds : ∀ i r, p.voidStorageItems i=some r → r.itemId < p.nextItemId

/-- What kind of item a record stands for. -/
def VoidStorageItem.good (r : VoidStorageItem) : Good :=
  ⟨r.itemEntry,r.creatorGuid.toUInt64,r.itemRandomPropertyId.toInt32,r.itemSuffixFactor⟩

/-- A deposit is lawful: one item leaves, whole and alone, and one free slot gets a record of
it. A record stands for one unit. -/
def DepositLaw (s : Player×ℕ) (guid : ℕ) : Prop :=
  match s.1.getItemByGuid guid with
  | none => depositTurn s guid=s
  | some item =>
    (depositTurn s guid).2=s.2+1 ∧ (depositTurn s guid).1.money=s.1.money ∧
      (depositTurn s guid).1.items=remove Item.guid guid s.1.items ∧
      ∃ slot r, s.1.voidStorageItems slot=none ∧
        (depositTurn s guid).1.voidStorageItems=
          Function.update s.1.voidStorageItems slot (some r) ∧
        r.good=item.good ∧ item.count=1

/-- The item is a single one with nothing in it, and its creator has a short guid. -/
def DepositOk (s : Player×ℕ) (guid : ℕ) : Prop :=
  ∀ item∈s.1.getItemByGuid guid, item.count=1 ∧ item.good.creator.toNat < 2^32 ∧
    ∀ i∈s.1.items, inside item i=true → i.pos=item.pos

section Slots

variable {p : Player}

theorem freeSlot_of_pos (h : 0 < p.getNumOfVoidStorageFreeSlots) :
    ∃ slot, p.getNextVoidStorageFreeSlot=some slot ∧ p.voidStorageItems slot=none := by
  unfold getNumOfVoidStorageFreeSlots at h
  unfold getNextVoidStorageFreeSlot
  cases hfree : p.voidStorageFree with
  | nil => rw [hfree] at h; exact absurd h (Nat.lt_irrefl 0)
  | cons slot rest =>
    refine ⟨slot,rfl,?_⟩
    have hmem : slot∈p.voidStorageFree := by rw [hfree]; exact List.mem_cons_self
    exact Option.isNone_iff_eq_none.mp (List.mem_filter.mp hmem).2

theorem free_update {slot : VoidSlot} (hslot : p.voidStorageItems slot=none)
    (r : VoidStorageItem) {p' : Player}
    (hp' : p'.voidStorageItems=Function.update p.voidStorageItems slot (some r)) :
    p'.getNumOfVoidStorageFreeSlots+1=p.getNumOfVoidStorageFreeSlots := by
  have hmem : slot∈p.voidStorageFree :=
    List.mem_filter.mpr ⟨List.mem_finRange slot,by rw [hslot]; rfl⟩
  have hnodup : p.voidStorageFree.Nodup := (List.nodup_finRange _).filter _
  have hfree : p'.voidStorageFree=p.voidStorageFree.erase slot := by
    rw [hnodup.erase_eq_filter]
    unfold voidStorageFree
    rw [List.filter_filter,hp']
    refine List.filter_congr fun i _ => ?_
    by_cases hi : i=slot
    · subst hi
      simp
    · simp [hi]
  unfold getNumOfVoidStorageFreeSlots
  rw [hfree,List.length_erase_of_mem hmem]
  have := List.length_pos_of_mem hmem
  omega

end Slots

section Deposit

variable {p : Player} {item : Item}

theorem destroyItem_of_mem (h : (p.items.map Item.pos).Nodup) (hitem : item∈p.items) :
    p.destroyItem item.pos=
      { p with items := p.items.filter fun i => i.pos≠item.pos && !inside item i } := by
  have hpos : p.getItemByPos item.pos=some item := lookup_of_mem h hitem
  unfold Player.destroyItem
  rw [hpos]

/-- What a deposit does where there is a free slot. -/
theorem Player.Wf.deposit (h : p.Wf) (hitem : item∈p.items)
    (hfree : 0 < p.getNumOfVoidStorageFreeSlots) :
    ∃ slot, p.voidStorageItems slot=none ∧
      p.deposit item={ p with
        items := p.items.filter fun i => i.pos≠item.pos && !inside item i,
        nextItemId := p.nextItemId+1,
        voidStorageItems :=
          Function.update p.voidStorageItems slot (some (p.voidRecord item)) } := by
  obtain ⟨slot,hslot,hnone⟩ := freeSlot_of_pos hfree
  refine ⟨slot,hnone,?_⟩
  have hadd : { p with nextItemId := p.nextItemId+1 }.addVoidStorageItem (p.voidRecord item)=
      { p with nextItemId := p.nextItemId+1,
               voidStorageItems :=
                 Function.update p.voidStorageItems slot (some (p.voidRecord item)) } := by
    unfold addVoidStorageItem
    rw [show Player.getNextVoidStorageFreeSlot { p with nextItemId := p.nextItemId+1 }=some slot
      from hslot]
  unfold Player.deposit
  rw [hadd]
  exact destroyItem_of_mem h.places hitem

/-- The other items stay just where nothing is inside the one that goes. -/
theorem Player.Wf.filter_eq_remove (h : p.Wf) (hitem : item∈p.items) :
    (p.items.filter fun i => i.pos≠item.pos && !inside item i)=
        remove Item.guid item.guid p.items ↔
      ∀ i∈p.items, inside item i=true → i.pos=item.pos := by
  have hsame : ∀ i∈p.items, i.pos=item.pos ↔ i.guid=item.guid := fun i hi =>
    ⟨fun he => congrArg Item.guid (List.inj_on_of_nodup_map h.places hi hitem he),
      fun he => congrArg Item.pos (List.inj_on_of_nodup_map h.guids hi hitem he)⟩
  constructor
  · intro heq i hi hinside
    by_contra hpos
    have hmem : i∈remove Item.guid item.guid p.items :=
      mem_remove.mpr ⟨hi,fun he => hpos ((hsame i hi).mpr he)⟩
    rw [← heq,List.mem_filter,hinside] at hmem
    simp at hmem
  · intro halone
    refine List.filter_congr fun i hi => ?_
    by_cases hpos : i.pos=item.pos
    · simp [hpos,(hsame i hi).mp hpos]
    have hguid : i.guid≠item.guid := fun he => hpos ((hsame i hi).mpr he)
    have hout : inside item i=false := by
      by_contra hin
      exact hpos (halone i hi (Bool.not_eq_false _ ▸ hin))
    simp [hpos,hguid,hout]

/-- The record says what the item was just where the guid of its creator is short. -/
theorem voidRecord_good : (p.voidRecord item).good=item.good ↔ item.good.creator.toNat < 2^32 := by
  have hshort : item.good.creator.toUInt32.toUInt64=item.good.creator ↔
      item.good.creator.toNat < 2^32 := by
    rw [← UInt64.toNat_inj,UInt64.toUInt64_toUInt32,UInt64.toNat_mod]
    exact Nat.mod_eq_iff_lt (by decide)
  rw [← hshort]
  unfold voidRecord VoidStorageItem.good
  constructor
  · intro h
    exact congrArg Good.creator h
  · intro h
    simp only [h,Int32.toInt32_toUInt32]

/-- A deposit is lawful just where the item is single, short and alone. -/
theorem depositLaw_iff {s : Player×ℕ} {guid : ℕ} (h : s.1.Wf)
    (hfree : 0 < s.1.getNumOfVoidStorageFreeSlots) :
    DepositLaw s guid ↔ DepositOk s guid := by
  unfold DepositLaw DepositOk
  cases hitem : s.1.getItemByGuid guid with
  | none =>
    refine iff_of_true ?_ (by rintro _ ⟨⟩)
    show depositTurn s guid=s
    unfold depositTurn
    rw [hitem]
  | some item =>
    have hmem : item∈s.1.items := mem_of_lookup hitem
    have hguid : item.guid=guid := key_of_lookup hitem
    obtain ⟨slot,hslot,hdeposit⟩ := h.deposit hmem hfree
    have hturn : depositTurn s guid=(s.1.deposit item,s.2+1) := by
      unfold depositTurn
      rw [hitem]
    have hremove := h.filter_eq_remove hmem
    rw [hguid] at hremove
    simp only [hturn,hdeposit,Option.mem_def,Option.some.injEq,forall_eq']
    rw [hremove]
    constructor
    · rintro ⟨-,-,halone,slot',r,hslot',hupdate,hgood,hcount⟩
      have hsame : slot'=slot := by
        by_contra hne
        have hr := congrFun hupdate slot'
        rw [Function.update_self,Function.update_of_ne hne,hslot'] at hr
        cases hr
      have hrecord := congrFun hupdate slot
      rw [hsame,Function.update_self,Function.update_self] at hrecord
      rw [← Option.some.inj hrecord] at hgood
      exact ⟨hcount,voidRecord_good.mp hgood,halone⟩
    · rintro ⟨hcount,hshort,halone⟩
      exact ⟨trivial,trivial,halone,slot,_,hslot,rfl,voidRecord_good.mpr hshort,hcount⟩

/-- A turn of the loop keeps the guids, the places and the ids apart. -/
theorem Player.Wf.depositTurn {s : Player×ℕ} (h : s.1.Wf) (guid : ℕ)
    (hfree : 0 < s.1.getNumOfVoidStorageFreeSlots) :
    (Player.depositTurn s guid).1.Wf ∧
      s.1.getNumOfVoidStorageFreeSlots ≤
        (Player.depositTurn s guid).1.getNumOfVoidStorageFreeSlots+1 ∧
      (Player.depositTurn s guid).1.money=s.1.money := by
  unfold Player.depositTurn
  cases hitem : s.1.getItemByGuid guid with
  | none => exact ⟨h,Nat.le_succ _,rfl⟩
  | some item =>
    obtain ⟨slot,hslot,hdeposit⟩ := h.deposit (mem_of_lookup hitem) hfree
    dsimp only
    rw [hdeposit]
    refine ⟨?_,?_,rfl⟩
    · refine ⟨h.guids.sublist (List.filter_sublist.map _),
        h.places.sublist (List.filter_sublist.map _),
        fun i hi => h.counts i (List.mem_of_mem_filter hi),
        fun i hi => h.fresh i (List.mem_of_mem_filter hi),fun i j r r' hr hr' he => ?_,
        fun i r hr => ?_⟩
      · dsimp only at hr hr'
        by_cases hi : i=slot
        · by_cases hj : j=slot
          · exact hi.trans hj.symm
          subst hi
          rw [Function.update_self] at hr
          rw [Function.update_of_ne hj] at hr'
          have hlt := h.freshIds j r' hr'
          rw [← he,← Option.some.inj hr] at hlt
          exact absurd hlt (Nat.lt_irrefl _)
        · rw [Function.update_of_ne hi] at hr
          by_cases hj : j=slot
          · subst hj
            rw [Function.update_self] at hr'
            have hlt := h.freshIds i r hr
            rw [he,← Option.some.inj hr'] at hlt
            exact absurd hlt (Nat.lt_irrefl _)
          · rw [Function.update_of_ne hj] at hr'
            exact h.ids i j r r' hr hr' he
      · dsimp only at hr
        by_cases hi : i=slot
        · subst hi
          rw [Function.update_self] at hr
          rw [← Option.some.inj hr]
          exact Nat.lt_succ_self _
        · rw [Function.update_of_ne hi] at hr
          exact Nat.lt_succ_of_lt (h.freshIds i r hr)
    · exact (free_update hslot _ rfl).ge

end Deposit

section Deposits

variable {s : Player×ℕ} {guids : List ℕ}

/-- There is a free slot at each turn where there are enough at the start. -/
theorem deposits_free (h : s.1.Wf) (hlen : guids.length ≤ s.1.getNumOfVoidStorageFreeSlots) :
    RunInvariant.Meets depositTurn (fun s _ => 0 < s.1.getNumOfVoidStorageFreeSlots) s guids := by
  induction guids generalizing s with
  | nil => trivial
  | cons guid guids ih =>
    have hfree : 0 < s.1.getNumOfVoidStorageFreeSlots :=
      Nat.lt_of_lt_of_le (Nat.succ_pos _) hlen
    obtain ⟨hwf,hle,-⟩ := h.depositTurn guid hfree
    refine ⟨hfree,ih hwf ?_⟩
    rw [List.length_cons] at hlen
    omega

/-- Then all the deposits are lawful just where each item is single, short and alone. -/
theorem deposits_lawful_iff (h : s.1.Wf)
    (hlen : guids.length ≤ s.1.getNumOfVoidStorageFreeSlots) :
    RunInvariant.Meets depositTurn DepositLaw s guids ↔
      RunInvariant.Meets depositTurn DepositOk s guids :=
  RunInvariant.meets_congr (I := fun s => s.1.Wf)
    (fun _ guid hs hfree => (hs.depositTurn guid hfree).1)
    (fun _ _ hs hfree => depositLaw_iff hs hfree) h (deposits_free h hlen)

theorem deposits_keep (h : s.1.Wf) (hlen : guids.length ≤ s.1.getNumOfVoidStorageFreeSlots) :
    (RunInvariant.run depositTurn s guids).1.Wf ∧
      (RunInvariant.run depositTurn s guids).1.money=s.1.money :=
  RunInvariant.run_invariant (I := fun s' => s'.1.Wf ∧ s'.1.money=s.1.money)
    (fun _ guid hs hfree =>
      ⟨(hs.1.depositTurn guid hfree).1,(hs.1.depositTurn guid hfree).2.2.trans hs.2⟩)
    ⟨h,rfl⟩ (deposits_free h hlen)

/-- A turn is counted just where it finds its item. -/
theorem depositTurn_count (s : Player×ℕ) (guid : ℕ) :
    (s.1.getItemByGuid guid=none ∧ depositTurn s guid=s) ∨
      (s.1.getItemByGuid guid≠none ∧ (depositTurn s guid).2=s.2+1) := by
  unfold depositTurn
  cases s.1.getItemByGuid guid with
  | none => exact .inl ⟨rfl,rfl⟩
  | some item => exact .inr ⟨Option.some_ne_none item,rfl⟩

/-- The deposits are at most as many as the request names. -/
theorem deposits_count (s : Player×ℕ) (guids : List ℕ) :
    s.2 ≤ (RunInvariant.run depositTurn s guids).2 ∧
      (RunInvariant.run depositTurn s guids).2 ≤ s.2+guids.length := by
  induction guids generalizing s with
  | nil => exact ⟨le_rfl,le_rfl⟩
  | cons guid guids ih =>
    obtain ⟨hle,hge⟩ := ih (depositTurn s guid)
    have hrun : RunInvariant.run depositTurn s (guid::guids)=
      RunInvariant.run depositTurn (depositTurn s guid) guids := rfl
    rw [hrun,List.length_cons]
    rcases depositTurn_count s guid with ⟨-,hturn⟩ | ⟨-,hturn⟩
    · rw [hturn] at hle hge ⊢
      exact ⟨hle,by omega⟩
    · rw [hturn] at hle hge
      exact ⟨by omega,by omega⟩

/-- There are none just where no item of the request is found, and then nothing happens. -/
theorem deposits_none (s : Player×ℕ) (guids : List ℕ) :
    ((RunInvariant.run depositTurn s guids).2=s.2 ↔
      ∀ guid∈guids, s.1.getItemByGuid guid=none) ∧
      ((∀ guid∈guids, s.1.getItemByGuid guid=none) →
        RunInvariant.run depositTurn s guids=s) := by
  induction guids generalizing s with
  | nil => exact ⟨iff_of_true rfl (by rintro _ ⟨⟩),fun _ => rfl⟩
  | cons guid guids ih =>
    simp only [List.forall_mem_cons]
    show ((RunInvariant.run depositTurn (depositTurn s guid) guids).2=s.2 ↔ _) ∧
      (_ → RunInvariant.run depositTurn (depositTurn s guid) guids=s)
    rcases depositTurn_count s guid with ⟨hnone,hturn⟩ | ⟨hsome,hturn⟩
    · rw [hturn]
      obtain ⟨hiff,hsame⟩ := ih s
      exact ⟨hiff.trans (and_iff_right hnone).symm,fun hall => hsame hall.2⟩
    · have hle := (deposits_count (depositTurn s guid) guids).1
      refine ⟨iff_of_false (by omega) fun hall => hsome hall.1,fun hall => absurd hall.1 hsome⟩

end Deposits

end Projectnelth.VoidStorageModel
