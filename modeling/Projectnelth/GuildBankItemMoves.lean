import Mathlib
import Projectnelth.GuildBankItemModel

/-!
# A guild bank keeps its items

A reservation is made of positions that take their part of a stack, in the bank
as it will be once the item has left its slot. Storing by a reservation adds just
the stack, so a move keeps the count of every entry; the objects stay in one slot
each and no stack is empty or over its limit.
-/

namespace Projectnelth.GuildBankItemMoves

open GuildRankModel GuildBankItemModel

/-- The item in a slot. -/
def contents (b : Bank) (place : Place) : Option Item := (getItem b place).map b.objects

/-- How many of an entry a slot holds. -/
def held (entry : UInt32) : Option Item → ℕ
  | some item => if item.entry=entry then item.count.toNat else 0
  | none => 0

/-- The slots of the purchased tabs. -/
def places (b : Bank) : Finset Place := Finset.range b.tabs ×ˢ Finset.range GUILD_BANK_MAX_SLOTS

/-- How many of an entry the bank holds. -/
def total (b : Bank) (entry : UInt32) : ℕ := ∑ place∈places b,held entry (contents b place)

/-- A bank as it should be: every object is in one slot and every stack has
a size between one and the limit of its entry. -/
structure Stored (b : Bank) : Prop where
  /-- The objects exist. -/
  allocated : ∀ place item,getItem b place=some item → item < b.next
  /-- No object is in two slots. -/
  apart : ∀ place place' item,getItem b place=some item → getItem b place'=some item → place=place'
  sized : ∀ place item,contents b place=some item →
    1 ≤ item.count.toNat ∧ item.count ≤ getMaxStackCount b item.entry

/-- The item objects, the slots and the counters of the members are the same. -/
structure Same (b b' : Bank) : Prop where
  items : b'.items=b.items
  tabs : b'.tabs=b.tabs
  bankWithdraw : b'.bankWithdraw=b.bankWithdraw
  /-- The objects in the slots. -/
  contents : ∀ place,contents b' place=contents b place

/-- An object outside the slots. -/
def Loose (b : Bank) (item : ℕ) : Prop := item < b.next ∧ ∀ place,getItem b place≠some item

/-- A part of a stack fits in a slot. -/
def Fits (max entry : UInt32) (slot : Option Item) (count : UInt32) : Prop :=
  1 ≤ count.toNat ∧
    match slot with
    | none => count ≤ max
    | some item => item.entry=entry ∧ item.count.toNat+count.toNat ≤ max.toNat

/-- A reservation of positions, for a view of a tab. -/
structure Reserved (max entry : UInt32) (view : ℕ → Option Item) (vec : List ItemPosCount)
    (count : ℕ) : Prop where
  /-- No slot twice. -/
  nodup : (vec.map ItemPosCount.pos).Nodup
  /-- Every position is a slot of the tab and takes its part. -/
  fits : ∀ pos∈vec,pos.pos < GUILD_BANK_MAX_SLOTS ∧ Fits max entry (view pos.pos) pos.count
  sum : (vec.map fun pos => pos.count.toNat).sum=count

theorem max_pos (stackable : Int32) : 1 ≤ (getMaxStackSize stackable).toNat := by
  unfold getMaxStackSize
  split
  · decide
  rename_i h
  have hpos : 0 < stackable.toInt := by
    by_contra hle
    exact h (Or.inr (Int32.le_iff_toInt_le.mpr (not_lt.mp hle)))
  rw [Int32.toNat_toUInt32_of_le (Int32.le_iff_toInt_le.mpr hpos.le)]
  exact Int.lt_toNat.mpr hpos

theorem toNat_min (a b : UInt32) : (min a b).toNat=min a.toNat b.toNat := by
  change (if a ≤ b then a else b).toNat=_
  rw [min_def]
  simp only [UInt32.le_iff_toNat_le]
  split <;> rfl

theorem getItem_place {b : Bank} {place : Place} {item : ℕ} (h : getItem b place=some item) :
    place.1 < b.tabs ∧ place.2 < GUILD_BANK_MAX_SLOTS := by
  unfold getItem at h
  split at h
  · assumption
  · cases h

theorem contents_eq_none {b : Bank} {place : Place} :
    contents b place=none ↔ getItem b place=none := Option.map_eq_none_iff

section Plan
variable {b : Bank} {item : ℕ} {view : ℕ → Option Item} {count : ℕ}

/-- A plan on the way: what is reserved and what is left make the count. -/
def Planned (b : Bank) (item : ℕ) (view : ℕ → Option Item) (count : ℕ) (plan : Plan) : Prop :=
  plan.2.toNat ≤ count ∧
    Reserved (getMaxStackCount b (b.objects item).entry) (b.objects item).entry view plan.1
      (count-plan.2.toNat)

theorem Planned.reserve {plan plan' : Plan} {slotId : ℕ} {dest : Option ℕ}
    (h : Planned b item view count plan) (hview : dest.map b.objects=view slotId)
    (hslot : slotId < GUILD_BANK_MAX_SLOTS) (hleft : plan.2≠0)
    (hreserve : reserveSpace b slotId item dest plan=some plan') :
    Planned b item view count plan' := by
  obtain ⟨hle,hreserved⟩ := h
  unfold reserveSpace at hreserve
  extract_lets max free at hreserve
  obtain ⟨requiredSpace,hfree,rfl⟩ := Option.map_eq_some_iff.mp hreserve
  split
  · exact ⟨hle,hreserved⟩
  rename_i hnew
  have hpos : 1 ≤ plan.2.toNat := Nat.pos_of_ne_zero fun h => hleft (UInt32.toNat_inj.mp h)
  have hmin := toNat_min requiredSpace plan.2
  have hleave : (plan.2-min requiredSpace plan.2).toNat=
      plan.2.toNat-min requiredSpace.toNat plan.2.toNat := by
    have hle : min requiredSpace plan.2 ≤ plan.2 := by
      rw [UInt32.le_iff_toNat_le,hmin]
      exact min_le_right _ _
    rw [UInt32.toNat_sub_of_le _ _ hle,hmin]
  have hfits : Fits max (b.objects item).entry (view slotId) (min requiredSpace plan.2) := by
    rw [← hview]
    have hmax : 1 ≤ max.toNat := max_pos _
    cases dest with
    | none =>
      obtain rfl : max=requiredSpace := Option.some.inj hfree
      refine ⟨by rw [hmin]; omega,?_⟩
      rw [Option.map_none]
      exact UInt32.le_iff_toNat_le.mpr (by rw [hmin]; exact min_le_left _ _)
    | some destItem =>
      simp only [free] at hfree
      split at hfree
      · cases hfree
      rename_i hroom
      obtain ⟨hentry,hfull⟩ := not_or.mp hroom
      have hlt := UInt32.lt_iff_toNat_lt.mp (UInt32.not_le.mp hfull)
      obtain rfl := Option.some.inj hfree
      rw [UInt32.toNat_sub_of_le _ _ (UInt32.le_of_lt (UInt32.not_le.mp hfull))] at hmin
      exact ⟨by rw [hmin]; omega,not_not.mp hentry,by rw [hmin]; omega⟩
  refine ⟨by rw [hleave]; omega,?_,?_,?_⟩
  · rw [List.map_append,List.nodup_append]
    refine ⟨hreserved.nodup,List.nodup_singleton _,?_⟩
    rintro pos hpos' pos' hpos'' rfl
    obtain rfl : pos=slotId := by simpa using hpos''
    exact hnew hpos'
  · intro pos hpos'
    rcases List.mem_append.mp hpos' with hold | hlast
    · exact hreserved.fits pos hold
    · obtain rfl := List.mem_singleton.mp hlast
      exact ⟨hslot,hfits⟩
  · rw [List.map_append,List.sum_append,hreserved.sum,List.map_singleton,List.sum_singleton,
      hleave,hmin]
    omega

/-- The search over the slots of a tab keeps a plan. -/
theorem Planned.inTab {tabId skipSlotId : ℕ} {merge : Bool} {slots : List ℕ} {plan : Plan}
    (h : Planned b item view count plan)
    (hview : ∀ slotId,view slotId=if getItem b (tabId,slotId)=some item then none
      else contents b (tabId,slotId))
    (hslots : ∀ slotId∈slots,slotId < GUILD_BANK_MAX_SLOTS) :
    Planned b item view count (canStoreItemInTab b tabId item skipSlotId merge slots plan) := by
  induction slots generalizing plan with
  | nil => exact h
  | cons slotId slots ih =>
    have hrest := fun slotId hslotId => hslots slotId (List.mem_cons_of_mem _ hslotId)
    unfold canStoreItemInTab
    split
    · exact h
    rename_i hleft
    split
    · exact ih h hrest
    extract_lets dest
    split
    · exact ih h hrest
    refine ih ?_ hrest
    cases hreserve : reserveSpace b slotId item dest plan with
    | none => exact h
    | some plan' =>
      refine h.reserve ?_ (hslots slotId List.mem_cons_self) hleft hreserve
      rw [hview]
      simp only [dest]
      split <;> rfl

end Plan

/-- What a reservation for a move is made against: the item has left its slot. -/
def viewWithout (b : Bank) (tabId item : ℕ) (slotId : ℕ) : Option Item :=
  if getItem b (tabId,slotId)=some item then none else contents b (tabId,slotId)

/-- What `CanStore` reserves for a move. -/
theorem canStore_reserved {b : Bank} {d : BankMoveItemData} {item : ℕ} {vec : List ItemPosCount}
    (hcount : 1 ≤ (b.objects item).count.toNat) (hslot : d.place.2 < GUILD_BANK_MAX_SLOTS)
    (h : canStore b d item false=.ok vec) :
    Reserved (getMaxStackCount b (b.objects item).entry) (b.objects item).entry
      (viewWithout b d.place.1 item) vec (b.objects item).count.toNat := by
  have hrange : ∀ slotId∈List.range GUILD_BANK_MAX_SLOTS,slotId < GUILD_BANK_MAX_SLOTS :=
    fun slotId => List.mem_range.mp
  have hnull : d.place.2≠NULL_SLOT := fun heq => by
    rw [heq] at hslot
    exact absurd hslot (by decide)
  have hstart : Planned b item (viewWithout b d.place.1 item) (b.objects item).count.toNat
      ([],(b.objects item).count) :=
    ⟨le_rfl,List.nodup_nil,fun _ hpos => absurd hpos List.not_mem_nil,(Nat.sub_self _).symm⟩
  have hdone : ∀ plan : Plan,Planned b item (viewWithout b d.place.1 item)
      (b.objects item).count.toNat plan → plan.2=0 →
      Reserved (getMaxStackCount b (b.objects item).entry) (b.objects item).entry
        (viewWithout b d.place.1 item) plan.1 (b.objects item).count.toNat := by
    intro plan hplan hzero
    have hreserved := hplan.2
    rw [hzero] at hreserved
    exact hreserved
  unfold canStore at h
  split at h
  · cases h
  split at h
  · cases h
  extract_lets dest at h
  split at h
  · cases h
  rename_i plan hreserve
  have hview : dest.map b.objects=viewWithout b d.place.1 item d.place.2 := by
    simp only [dest,viewWithout,Bool.false_eq_true,or_false]
    split <;> rfl
  have hplan := hstart.reserve hview hslot (fun hzero => by
      rw [show (b.objects item).count=0 from hzero] at hcount
      exact absurd hcount (by decide)) hreserve
  split at h
  · rename_i hzero
    rw [← Except.ok.inj h]
    exact hdone plan hplan hzero
  · unfold canStoreInTab at h
    extract_lets slots merged stored at h
    have hmerged : Planned b item (viewWithout b d.place.1 item)
        (b.objects item).count.toNat merged := by
      simp only [merged]
      split
      · exact hplan.inTab (fun _ => rfl) hrange
      · exact hplan
    split at h
    · rename_i hzero
      rw [← Except.ok.inj h]
      exact hdone stored (hmerged.inTab (fun _ => rfl) hrange) hzero
    · cases h

/-- A stack that takes the place of another is stored there whole. -/
theorem canStore_swap {b : Bank} {d : BankMoveItemData} {item : ℕ} {vec : List ItemPosCount}
    (hslot : d.place.2 < GUILD_BANK_MAX_SLOTS)
    (hmax : (b.objects item).count ≤ getMaxStackCount b (b.objects item).entry)
    (h : canStore b d item true=.ok vec) : vec=[⟨d.place.2,(b.objects item).count⟩] := by
  have hnull : d.place.2≠NULL_SLOT := fun heq => by
    rw [heq] at hslot
    exact absurd hslot (by decide)
  have hmin : min (getMaxStackCount b (b.objects item).entry) (b.objects item).count=
      (b.objects item).count := by
    apply UInt32.toNat_inj.mp
    rw [toNat_min]
    exact min_eq_right (UInt32.le_iff_toNat_le.mp hmax)
  unfold canStore at h
  split at h
  · cases h
  split at h
  · cases h
  · simp only [or_true,if_true,reserveSpace,Option.map_some,List.map_nil,
      List.not_mem_nil,if_false,hmin,sub_self,List.nil_append] at h
    exact (Except.ok.inj h).symm

/-- A bank goes over into another, whose slots hold `after`; loose objects stay
as they are, except for those that are gone. -/
structure Turns (b b' : Bank) (gone : List ℕ) (after : Place → Option Item) : Prop where
  stored : Stored b'
  tabs : b'.tabs=b.tabs
  /-- The item templates. -/
  stackable : b'.stackable=b.stackable
  /-- The slots. -/
  contents : contents b'=after
  loose : ∀ item,item∉gone → Loose b item → Loose b' item ∧ b'.objects item=b.objects item

section Turns
variable {b b' : Bank} {place : Place} {item : ℕ} {count : UInt32}

theorem Turns.trans {b'' : Bank} {gone gone' : List ℕ} {after after' : Place → Option Item}
    (h : Turns b b' gone after) (h' : Turns b' b'' gone' after') :
    Turns b b'' (gone++gone') after' where
  stored := h'.stored
  tabs := h'.tabs.trans h.tabs
  stackable := h'.stackable.trans h.stackable
  contents := h'.contents
  loose item hgone hloose := by
    obtain ⟨hfirst,hsecond⟩ := not_or.mp (mt List.mem_append.mpr hgone)
    obtain ⟨hloose',hsame⟩ := h.loose item hfirst hloose
    obtain ⟨hloose'',hsame'⟩ := h'.loose item hsecond hloose'
    exact ⟨hloose'',hsame'.trans hsame⟩

theorem Turns.mono {gone gone' : List ℕ} {after : Place → Option Item}
    (h : Turns b b' gone after) (hsub : gone ⊆ gone') : Turns b b' gone' after :=
  ⟨h.stored,h.tabs,h.stackable,h.contents,fun item hgone => h.loose item fun hmem =>
    hgone (hsub hmem)⟩

theorem contents_congr (hget : ∀ place,getItem b' place=getItem b place)
    (hobjects : ∀ place item,getItem b place=some item → b'.objects item=b.objects item) :
    contents b'=contents b := by
  funext place
  unfold contents
  rw [hget]
  cases hitem : getItem b place with
  | none => rfl
  | some item => exact congrArg some (hobjects place item hitem)

theorem contents_setCount (hstored : Stored b) (hitem : getItem b place=some item) :
    contents (setCount b item count)=
      Function.update (contents b) place (some { b.objects item with count := count }) := by
  funext other
  change (getItem b other).map _=_
  rw [Function.update_apply]
  split
  · rename_i heq
    rw [heq,hitem]
    exact congrArg some (Function.update_self _ _ _)
  · rename_i hne
    unfold contents
    cases hother : getItem b other with
    | none => rfl
    | some item' =>
      have hne' : item'≠item := fun heq => hne (hstored.apart other place item (heq ▸ hother) hitem)
      exact congrArg some (Function.update_of_ne hne' _ _)

/-- The size of a stack in a slot changes. -/
theorem turns_setCount (hstored : Stored b) (hitem : getItem b place=some item)
    (hpos : 1 ≤ count.toNat) (hmax : count ≤ getMaxStackCount b (b.objects item).entry) :
    Turns b (setCount b item count) []
      (Function.update (contents b) place (some { b.objects item with count := count })) where
  stored := by
    refine ⟨hstored.allocated,hstored.apart,fun other item' hother => ?_⟩
    rw [contents_setCount hstored hitem,Function.update_apply] at hother
    split at hother
    · obtain rfl := Option.some.inj hother
      exact ⟨hpos,hmax⟩
    · exact hstored.sized other item' hother
  tabs := rfl
  stackable := rfl
  contents := contents_setCount hstored hitem
  loose item' _ hloose := by
    refine ⟨hloose,Function.update_of_ne (fun heq => ?_) _ _⟩
    exact hloose.2 place (heq ▸ hitem)

/-- The size of a loose stack changes. -/
theorem turns_setCount_loose (count : UInt32) (hstored : Stored b) (hloose : Loose b item) :
    Turns b (setCount b item count) [item] (contents b) := by
  have hcontents : contents (setCount b item count)=contents b :=
    contents_congr (fun _ => rfl) fun other item' hother =>
      Function.update_of_ne (fun heq => hloose.2 other (by rw [hother,heq])) _ _
  refine ⟨⟨hstored.allocated,hstored.apart,fun other item' hother => ?_⟩,rfl,rfl,hcontents,
    fun item' hne hloose' => ⟨hloose',Function.update_of_ne (by simpa using hne) _ _⟩⟩
  rw [hcontents] at hother
  exact hstored.sized other item' hother

theorem getItem_setItem (hplace : place.1 < b.tabs ∧ place.2 < GUILD_BANK_MAX_SLOTS)
    (new : Option ℕ) (other : Place) :
    getItem (setItem b place new) other=if other=place then new else getItem b other := by
  unfold setItem
  rw [if_pos hplace]
  unfold getItem
  dsimp only
  split
  · rw [Function.update_apply]
  rename_i hother
  rw [if_neg]
  rintro rfl
  exact hother hplace

theorem contents_setItem (hplace : place.1 < b.tabs ∧ place.2 < GUILD_BANK_MAX_SLOTS)
    (new : Option ℕ) :
    contents (setItem b place new)=Function.update (contents b) place (new.map b.objects) := by
  have hobjects : (setItem b place new).objects=b.objects := by
    unfold setItem
    split <;> rfl
  funext other
  unfold contents
  rw [getItem_setItem hplace,hobjects,Function.update_apply]
  split <;> rfl

theorem turns_setItem (hstored : Stored b) (hloose : Loose b item)
    (hplace : place.1 < b.tabs ∧ place.2 < GUILD_BANK_MAX_SLOTS)
    (hpos : 1 ≤ (b.objects item).count.toNat)
    (hmax : (b.objects item).count ≤ getMaxStackCount b (b.objects item).entry) :
    Turns b (setItem b place (some item)) [item]
      (Function.update (contents b) place (some (b.objects item))) := by
  have hset : setItem b place (some item)=
      { b with items := Function.update b.items place (some item) } := if_pos hplace
  have hget := getItem_setItem hplace (some item)
  refine ⟨⟨fun other item' hother => ?_,fun other other' item' hother hother' => ?_,
    fun other item' hother => ?_⟩,by rw [hset],by rw [hset],contents_setItem hplace _,
    fun item' hne hloose' => ⟨⟨by rw [hset]; exact hloose'.1,fun other => ?_⟩,by rw [hset]⟩⟩
  · rw [hget] at hother
    rw [hset]
    split at hother
    · exact Option.some.inj hother ▸ hloose.1
    · exact hstored.allocated other item' hother
  · rw [hget] at hother hother'
    split at hother <;> split at hother'
    · rename_i h h'
      exact h.trans h'.symm
    · exact absurd (Option.some.inj hother ▸ hother') (hloose.2 other')
    · exact absurd (Option.some.inj hother' ▸ hother) (hloose.2 other)
    · exact hstored.apart other other' item' hother hother'
  · rw [contents_setItem hplace,Function.update_apply] at hother
    rw [hset]
    split at hother
    · obtain rfl := Option.some.inj hother
      exact ⟨hpos,hmax⟩
    · exact hstored.sized other item' hother
  · rw [hget]
    split
    · exact fun heq => hne (by simp [Option.some.inj heq])
    · exact hloose'.2 other

/-- A slot is emptied and its object becomes loose. -/
theorem turns_clear (hstored : Stored b) (hitem : getItem b place=some item) :
    Turns b (setItem b place none) [] (Function.update (contents b) place none) ∧
      Loose (setItem b place none) item ∧ (setItem b place none).objects item=b.objects item := by
  have hplace := getItem_place hitem
  have hset : setItem b place none={ b with items := Function.update b.items place none } :=
    if_pos hplace
  have hget := getItem_setItem hplace none
  have hold : ∀ other item',getItem (setItem b place none) other=some item' →
      getItem b other=some item' := by
    intro other item' hother
    rw [hget] at hother
    split at hother
    · cases hother
    · exact hother
  refine ⟨⟨⟨fun other item' hother => ?_,fun other other' item' hother hother' => ?_,
    fun other item' hother => ?_⟩,by rw [hset],by rw [hset],contents_setItem hplace _,
    fun item' _ hloose => ⟨⟨by rw [hset]; exact hloose.1,fun other hother => ?_⟩,by rw [hset]⟩⟩,
    ⟨by rw [hset]; exact hstored.allocated place item hitem,fun other hother => ?_⟩,by rw [hset]⟩
  · rw [hset]
    exact hstored.allocated other item' (hold other item' hother)
  · exact hstored.apart other other' item' (hold other item' hother) (hold other' item' hother')
  · rw [contents_setItem hplace,Function.update_apply] at hother
    rw [hset]
    split at hother
    · cases hother
    · exact hstored.sized other item' hother
  · exact hloose.2 other (hold other item' hother)
  · have heq := hstored.apart other place item (hold other item hother) hitem
    rw [hget,if_pos heq] at hother
    cases hother

/-- The bank with a clone. -/
def cloned (b : Bank) (item : ℕ) (count : UInt32) : Bank :=
  { b with
    objects := Function.update b.objects b.next { b.objects item with count := count }
    next := b.next+1 }

theorem cloneItem_eq (hpos : 1 ≤ count.toNat)
    (hmax : count ≤ getMaxStackCount b (b.objects item).entry) :
    cloneItem b item count=some (cloned b item count,b.next) := by
  have hlt : ¬count < 1 := by
    rw [UInt32.lt_iff_toNat_lt]
    exact not_lt.mpr hpos
  unfold cloneItem
  rw [if_neg hlt]
  dsimp only
  rw [if_neg (UInt32.not_lt.mpr hmax)]
  rfl

theorem turns_cloned (hstored : Stored b) (item : ℕ) (count : UInt32) :
    Turns b (cloned b item count) [] (contents b) ∧ Loose (cloned b item count) b.next ∧
      (cloned b item count).objects b.next={ b.objects item with count := count } := by
  have hne : ∀ place item',getItem b place=some item' → item'≠b.next := fun place item' hitem =>
    (hstored.allocated place item' hitem).ne
  have hcontents : contents (cloned b item count)=contents b :=
    contents_congr (fun _ => rfl) fun place item' hitem =>
      Function.update_of_ne (hne place item' hitem) _ _
  refine ⟨⟨⟨fun place item' hitem => ?_,hstored.apart,fun place item' hitem => ?_⟩,rfl,rfl,
    hcontents,fun item' _ hloose => ?_⟩,⟨Nat.lt_succ_self b.next,fun place hitem => ?_⟩,
    Function.update_self _ _ _⟩
  · exact (hstored.allocated place item' hitem).trans (Nat.lt_succ_self _)
  · rw [hcontents] at hitem
    exact hstored.sized place item' hitem
  · exact ⟨⟨hloose.1.trans (Nat.lt_succ_self _),hloose.2⟩,Function.update_of_ne hloose.1.ne _ _⟩
  · exact hne place b.next hitem rfl

end Turns

/-- A slot with a part of a stack added. -/
def grown (item : Item) (count : UInt32) : Option Item → Item
  | some dest => { dest with count := dest.count+count }
  | none => { item with count := count }

/-- The slots with the parts of a stack added. -/
def fill (tabId : ℕ) (item : Item) : List ItemPosCount → (Place → Option Item) → Place → Option Item
  | [],slots => slots
  | pos::vec,slots =>
    fill tabId item vec (Function.update slots (tabId,pos.pos)
      (some (grown item pos.count (slots (tabId,pos.pos)))))

section Store
variable {b : Bank} {tabId item : ℕ}

/-- One part of a stack is stored; a clone leaves the object itself loose. -/
theorem turns_storeItemAt (hstored : Stored b) (hloose : Loose b item) (htab : tabId < b.tabs)
    {pos : ItemPosCount} (hpos : pos.pos < GUILD_BANK_MAX_SLOTS)
    (hfits : Fits (getMaxStackCount b (b.objects item).entry) (b.objects item).entry
      (contents b (tabId,pos.pos)) pos.count) (clone : Bool) :
    Turns b (storeItemAt b tabId item pos clone) (if clone then [] else [item])
      (Function.update (contents b) (tabId,pos.pos)
        (some (grown (b.objects item) pos.count (contents b (tabId,pos.pos))))) := by
  obtain ⟨hone,hroom⟩ := hfits
  unfold storeItemAt
  cases hdest : getItem b (tabId,pos.pos) with
  | some destItem =>
    have hcontents : contents b (tabId,pos.pos)=some (b.objects destItem) := by
      rw [contents,hdest]
      rfl
    rw [hcontents] at hroom ⊢
    obtain ⟨hentry,hsum⟩ := hroom
    have hmax := UInt32.toNat_lt (getMaxStackCount b (b.objects item).entry)
    have hadd : ((b.objects destItem).count+pos.count).toNat=
        (b.objects destItem).count.toNat+pos.count.toNat := by
      rw [UInt32.toNat_add]
      exact Nat.mod_eq_of_lt (by omega)
    refine (turns_setCount hstored hdest (by omega) ?_).mono (List.nil_subset _)
    rw [hentry,UInt32.le_iff_toNat_le,hadd]
    exact hsum
  | none =>
    have hcontents : contents b (tabId,pos.pos)=none := contents_eq_none.mpr hdest
    rw [hcontents] at hroom ⊢
    have hplace : (tabId,pos.pos).1 < b.tabs ∧ (tabId,pos.pos).2 < GUILD_BANK_MAX_SLOTS := ⟨htab,hpos⟩
    cases clone with
    | true =>
      obtain ⟨hturns,hloose',hobject⟩ := turns_cloned hstored item pos.count
      rw [cloneItem_eq hone hroom]
      have hset := turns_setItem hturns.stored hloose' hplace (by rw [hobject]; exact hone)
        (by rw [hobject]; exact hroom)
      rw [hobject,hturns.contents] at hset
      refine ⟨hset.stored,hset.tabs,hset.stackable,hset.contents,fun other _ hother => ?_⟩
      obtain ⟨hother',hsame⟩ := hturns.loose other List.not_mem_nil hother
      obtain ⟨hother'',hsame'⟩ := hset.loose other (fun hmem =>
        hother.1.ne (List.mem_singleton.mp hmem)) hother'
      exact ⟨hother'',hsame'.trans hsame⟩
    | false =>
      have hturns := turns_setCount_loose pos.count hstored hloose
      have hloose' : Loose (setCount b item pos.count) item := ⟨hloose.1,hloose.2⟩
      have hobject : (setCount b item pos.count).objects item=
          { b.objects item with count := pos.count } := Function.update_self _ _ _
      have hset := turns_setItem hturns.stored hloose' hplace (by rw [hobject]; exact hone)
        (by rw [hobject]; exact hroom)
      rw [hobject,hturns.contents] at hset
      exact (hturns.trans hset).mono (by simp)

theorem Reserved.tail {max entry : UInt32} {view view' : ℕ → Option Item} {pos : ItemPosCount}
    {vec : List ItemPosCount} {count : ℕ} (h : Reserved max entry view (pos::vec) count)
    (hview : ∀ slotId,slotId≠pos.pos → view' slotId=view slotId) :
    Reserved max entry view' vec (count-pos.count.toNat) := by
  have hnodup := List.nodup_cons.mp h.nodup
  refine ⟨hnodup.2,fun pos' hpos' => ?_,?_⟩
  · rw [hview pos'.pos fun heq => hnodup.1 (heq ▸ List.mem_map_of_mem hpos')]
    exact h.fits pos' (List.mem_cons_of_mem _ hpos')
  · have hsum := h.sum
    rw [List.map_cons,List.sum_cons] at hsum
    omega

theorem turns_storeItem {vec : List ItemPosCount} {count : ℕ} (hstored : Stored b)
    (hloose : Loose b item) (htab : tabId < b.tabs)
    (hreserved : Reserved (getMaxStackCount b (b.objects item).entry) (b.objects item).entry
      (fun slotId => contents b (tabId,slotId)) vec count) :
    Turns b (storeItem b tabId item vec) [item]
      (fill tabId (b.objects item) vec (contents b)) := by
  fun_induction storeItem b tabId item vec generalizing count with
  | case1 b => exact ⟨hstored,rfl,rfl,rfl,fun other _ hother => ⟨hother,rfl⟩⟩
  | case2 b pos =>
    obtain ⟨hpos,hfits⟩ := hreserved.fits pos List.mem_cons_self
    exact turns_storeItemAt hstored hloose htab hpos hfits false
  | case3 b pos next vec ih =>
    obtain ⟨hpos,hfits⟩ := hreserved.fits pos List.mem_cons_self
    have hturns := turns_storeItemAt hstored hloose htab hpos hfits true
    obtain ⟨hloose',hobject⟩ := hturns.loose item List.not_mem_nil hloose
    have hrest := ih hturns.stored hloose' (hturns.tabs ▸ htab) (by
      rw [hobject,hturns.contents,getMaxStackCount,hturns.stackable]
      refine hreserved.tail fun slotId hne => Function.update_of_ne ?_ _ _
      exact fun heq => hne (Prod.mk.inj heq).2)
    rw [hobject,hturns.contents] at hrest
    exact (hturns.trans hrest).mono (by simp)

/-- How many of an entry the slots of some places hold. -/
def totalOf (places : Finset Place) (slots : Place → Option Item) (entry : UInt32) : ℕ :=
  ∑ place∈places,held entry (slots place)

theorem totalOf_update {places : Finset Place} {place : Place} (hplace : place∈places)
    (slots : Place → Option Item) (slot : Option Item) (entry : UInt32) :
    totalOf places (Function.update slots place slot) entry+held entry (slots place)=
      totalOf places slots entry+held entry slot := by
  have hrest : ∑ other∈places.erase place,held entry (Function.update slots place slot other)=
      ∑ other∈places.erase place,held entry (slots other) :=
    Finset.sum_congr rfl fun other hother => by
      rw [Function.update_of_ne (Finset.ne_of_mem_erase hother)]
  have hafter := Finset.sum_erase_add places
    (fun other => held entry (Function.update slots place slot other)) hplace
  have hbefore := Finset.sum_erase_add places (fun other => held entry (slots other)) hplace
  rw [Function.update_self,hrest] at hafter
  unfold totalOf
  omega

theorem totalOf_fill {places : Finset Place} {stack : Item} {max : UInt32}
    {vec : List ItemPosCount} {count : ℕ} {slots : Place → Option Item}
    (hplaces : ∀ slotId < GUILD_BANK_MAX_SLOTS,(tabId,slotId)∈places)
    (hreserved : Reserved max stack.entry (fun slotId => slots (tabId,slotId)) vec count)
    (entry : UInt32) :
    totalOf places (fill tabId stack vec slots) entry=
      totalOf places slots entry+if stack.entry=entry then count else 0 := by
  induction vec generalizing slots count with
  | nil =>
    have hzero : count=0 := hreserved.sum.symm
    rw [hzero,ite_self,add_zero]
    rfl
  | cons pos vec ih =>
    obtain ⟨hpos,hone,hroom⟩ := hreserved.fits pos List.mem_cons_self
    have hsum := hreserved.sum
    rw [List.map_cons,List.sum_cons] at hsum
    have hupdate := totalOf_update (hplaces pos.pos hpos) slots
      (some (grown stack pos.count (slots (tabId,pos.pos)))) entry
    have hgrown : held entry (some (grown stack pos.count (slots (tabId,pos.pos))))=
        held entry (slots (tabId,pos.pos))+if stack.entry=entry then pos.count.toNat else 0 := by
      cases hslot : slots (tabId,pos.pos) with
      | none =>
        exact (Nat.zero_add _).symm
      | some dest =>
        rw [hslot] at hroom
        obtain ⟨hentry,hfit⟩ := hroom
        have hmax := UInt32.toNat_lt max
        have hadd : (dest.count+pos.count).toNat=dest.count.toNat+pos.count.toNat := by
          rw [UInt32.toNat_add]
          exact Nat.mod_eq_of_lt (by omega)
        simp only [grown,held,hentry,hadd]
        split <;> rfl
    unfold fill
    rw [ih (hreserved.tail fun slotId hne => Function.update_of_ne
      (fun heq => hne (Prod.mk.inj heq).2) _ _)]
    rw [hgrown] at hupdate
    split
    · rename_i hentry
      rw [if_pos hentry] at hupdate
      omega
    · rename_i hentry
      rw [if_neg hentry] at hupdate
      omega

theorem fill_elsewhere {stack : Item} {vec : List ItemPosCount} {slots : Place → Option Item}
    {place : Place} (h : ∀ pos∈vec,place≠(tabId,pos.pos)) :
    fill tabId stack vec slots place=slots place := by
  induction vec generalizing slots with
  | nil => rfl
  | cons pos vec ih =>
    unfold fill
    rw [ih fun pos' hpos' => h pos' (List.mem_cons_of_mem _ hpos'),
      Function.update_of_ne (h pos List.mem_cons_self)]

end Store

section Moves
variable {b : Bank} {player : UInt32} {src dest : BankMoveItemData} {item : ℕ}

theorem updateMemberWithdrawSlots_eq (b : Bank) (player : UInt32) (tabId : ℕ) :
    ∃ counters,updateMemberWithdrawSlots b player tabId={ b with bankWithdraw := counters } := by
  unfold updateMemberWithdrawSlots
  split
  · split
    · exact ⟨_,rfl⟩
    · exact ⟨b.bankWithdraw,rfl⟩
  · exact ⟨b.bankWithdraw,rfl⟩

variable (player dest) in
theorem removeItem_eq (hitem : src.item=some item) (splitedAmount : UInt32) :
    ∃ counters,removeItem b player src dest splitedAmount=
      { (if splitedAmount≠0 then setCount b item ((b.objects item).count-splitedAmount)
          else setItem b src.place none) with bankWithdraw := counters } := by
  unfold removeItem
  rw [hitem]
  dsimp only
  generalize (if splitedAmount≠0 then setCount b item ((b.objects item).count-splitedAmount)
    else setItem b src.place none)=removed
  split
  · exact updateMemberWithdrawSlots_eq _ _ _
  · exact ⟨removed.bankWithdraw,rfl⟩

variable (player dest) in
/-- The item leaves its slot. -/
theorem turns_removeItem (hstored : Stored b) (hitem : src.item=some item)
    (hget : getItem b src.place=some item) :
    Turns b (removeItem b player src dest 0) [] (Function.update (contents b) src.place none) ∧
      Loose (removeItem b player src dest 0) item ∧
      (removeItem b player src dest 0).objects item=b.objects item := by
  obtain ⟨counters,heq⟩ := removeItem_eq (b := b) player dest hitem 0
  obtain ⟨hturns,hloose,hobject⟩ := turns_clear hstored hget
  rw [if_neg (not_not.mpr rfl)] at heq
  rw [heq]
  exact ⟨⟨⟨hturns.stored.allocated,hturns.stored.apart,hturns.stored.sized⟩,hturns.tabs,
    hturns.stackable,hturns.contents,hturns.loose⟩,hloose,hobject⟩

theorem getItem_removeItem (hitem : src.item=some item) (hget : getItem b src.place=some item)
    (other : Place) :
    getItem (removeItem b player src dest 0) other=
      if other=src.place then none else getItem b other := by
  obtain ⟨counters,heq⟩ := removeItem_eq (b := b) player dest hitem 0
  rw [if_neg (not_not.mpr rfl)] at heq
  rw [heq]
  exact getItem_setItem (getItem_place hget) none other

variable (player dest) in
/-- A part of the stack leaves its slot. -/
theorem turns_splitItem (hstored : Stored b) (hitem : src.item=some item)
    (hget : getItem b src.place=some item) {splitedAmount : UInt32} (hsome : splitedAmount≠0)
    (hlt : splitedAmount < (b.objects item).count) :
    Turns b (removeItem b player src dest splitedAmount) []
      (Function.update (contents b) src.place
        (some { b.objects item with count := (b.objects item).count-splitedAmount })) := by
  obtain ⟨counters,heq⟩ := removeItem_eq (b := b) player dest hitem
    splitedAmount
  have hsized := (hstored.sized src.place (b.objects item) (by rw [contents,hget]; rfl)).2
  have hlt' := UInt32.lt_iff_toNat_lt.mp hlt
  have hsub := UInt32.toNat_sub_of_le _ _ (UInt32.le_of_lt hlt)
  have hleft : 1 ≤ ((b.objects item).count-splitedAmount).toNat := by omega
  have hturns := turns_setCount hstored hget hleft (by
    rw [UInt32.le_iff_toNat_le] at hsized ⊢
    omega)
  rw [if_pos hsome] at heq
  rw [heq]
  exact ⟨⟨hturns.stored.allocated,hturns.stored.apart,hturns.stored.sized⟩,hturns.tabs,
    hturns.stackable,hturns.contents,hturns.loose⟩

/-- A move that does not go through leaves the bank alone. -/
theorem doItemsMove_false {splitedAmount : UInt32}
    (h : (doItemsMove b player src dest splitedAmount).2=false) :
    (doItemsMove b player src dest splitedAmount).1=b := by
  unfold doItemsMove at h ⊢
  split
  · rfl
  split
  · rfl
  split
  · simp_all
  · split
    · rfl
    · simp_all

/-- The bank is as it should be and holds as many of every entry. -/
structure Conserved (b b' : Bank) : Prop where
  stored : Stored b'
  tabs : b'.tabs=b.tabs
  /-- The item templates. -/
  stackable : b'.stackable=b.stackable
  total : ∀ entry,total b' entry=total b entry

theorem total_eq {b' : Bank} {gone : List ℕ} {after : Place → Option Item}
    (h : Turns b b' gone after) (entry : UInt32) : total b' entry=totalOf (places b) after entry := by
  unfold total places
  rw [h.tabs,h.contents]
  rfl

theorem mem_places {place : Place} :
    place∈places b ↔ place.1 < b.tabs ∧ place.2 < GUILD_BANK_MAX_SLOTS := by
  rw [places,Finset.mem_product,Finset.mem_range,Finset.mem_range]

variable (src dest) in
theorem doItemsMove_whole (hstored : Stored b) (hitem : src.item=some item)
    (hget : getItem b src.place=some item) (hdest : dest.item=none)
    (hplace : dest.place.1 < b.tabs ∧ dest.place.2 < GUILD_BANK_MAX_SLOTS)
    (h : (doItemsMove b player src dest 0).2=true) :
    Conserved b (doItemsMove b player src dest 0).1 := by
  unfold doItemsMove at h ⊢
  rw [if_neg (not_not.mpr rfl),hitem,hdest] at h ⊢
  dsimp only [Option.isSome_none] at h ⊢
  cases hcan : canStore b dest item false with
  | error result =>
    rw [hcan] at h
    cases h
  | ok vec =>
    have hcontents : contents b src.place=some (b.objects item) := by
      rw [contents,hget]
      rfl
    have hreserved := canStore_reserved (hstored.sized _ _ hcontents).1 hplace.2 hcan
    obtain ⟨hremove,hloose,hobject⟩ :=
      turns_removeItem player dest hstored hitem hget
    have hview : viewWithout b dest.place.1 item=fun slotId =>
        contents (removeItem b player src dest 0) (dest.place.1,slotId) := by
      funext slotId
      rw [hremove.contents,viewWithout,Function.update_apply]
      refine if_congr ⟨fun heq => hstored.apart _ _ item heq hget,?_⟩ rfl rfl
      rintro heq
      rw [heq,hget]
    rw [hview] at hreserved
    have hstore := turns_storeItem (b := removeItem b player src dest 0) hremove.stored hloose
      (hremove.tabs ▸ hplace.1) (by
        rw [hobject,getMaxStackCount,hremove.stackable]
        exact hreserved)
    have hturns := hremove.trans hstore
    refine ⟨hstore.stored,hturns.tabs,hturns.stackable,fun entry => ?_⟩
    rw [total_eq hturns,hobject,totalOf_fill (fun slotId hslotId =>
      mem_places.mpr ⟨hplace.1,hslotId⟩) hreserved,hremove.contents]
    have hupdate := totalOf_update (mem_places.mpr (getItem_place hget)) (contents b) none entry
    rw [hcontents] at hupdate
    exact hupdate

variable (src dest) in
/-- A part of a stack is moved. -/
theorem doItemsMove_split {split : ℕ} {splitedAmount : UInt32} (hstored : Stored b)
    (hitem : src.item=some item) (hget : getItem b src.place=some item)
    (hclone : src.clonedItem=some split) (hsplit : Loose b split)
    (hobject : b.objects split={ b.objects item with count := splitedAmount })
    (hsome : splitedAmount≠0) (hlt : splitedAmount < (b.objects item).count) (hdest : dest.item=none)
    (hplace : dest.place.1 < b.tabs ∧ dest.place.2 < GUILD_BANK_MAX_SLOTS)
    (h : (doItemsMove b player src dest splitedAmount).2=true) :
    Conserved b (doItemsMove b player src dest splitedAmount).1 := by
  unfold doItemsMove at h ⊢
  rw [if_pos hsome,hclone,hdest] at h ⊢
  dsimp only [Option.isSome_none] at h ⊢
  cases hcan : canStore b dest split false with
  | error result =>
    rw [hcan] at h
    cases h
  | ok vec =>
    have hcontents : contents b src.place=some (b.objects item) := by
      rw [contents,hget]
      rfl
    have hlt' := UInt32.lt_iff_toNat_lt.mp hlt
    have hsub := UInt32.toNat_sub_of_le _ _ (UInt32.le_of_lt hlt)
    have hone : 1 ≤ (b.objects split).count.toNat := by
      rw [hobject]
      exact Nat.pos_of_ne_zero fun hzero => hsome (UInt32.toNat_inj.mp hzero)
    have hreserved := canStore_reserved hone hplace.2 hcan
    have hremove := turns_splitItem player dest hstored hitem hget hsome hlt
    obtain ⟨hloose,hsame⟩ := hremove.loose split List.not_mem_nil hsplit
    have hreserved' : Reserved (getMaxStackCount b (b.objects split).entry) (b.objects split).entry
        (fun slotId => contents (removeItem b player src dest splitedAmount) (dest.place.1,slotId))
        vec (b.objects split).count.toNat := by
      refine ⟨hreserved.nodup,fun pos hpos => ⟨(hreserved.fits pos hpos).1,?_⟩,hreserved.sum⟩
      have hfits := (hreserved.fits pos hpos).2
      rw [viewWithout,if_neg (hsplit.2 _)] at hfits
      rw [hremove.contents,Function.update_apply]
      split
      · -- the slot that the part comes from has only more room
        rename_i heq
        rw [heq,hcontents] at hfits
        obtain ⟨hpos',hentry,hroom⟩ := hfits
        refine ⟨hpos',hentry,?_⟩
        dsimp only
        omega
      · exact hfits
    have hstore := turns_storeItem (b := removeItem b player src dest splitedAmount)
      hremove.stored hloose (hremove.tabs ▸ hplace.1) (by
        rw [hsame,getMaxStackCount,hremove.stackable]
        exact hreserved')
    have hturns := hremove.trans hstore
    refine ⟨hstore.stored,hturns.tabs,hturns.stackable,fun entry => ?_⟩
    rw [total_eq hturns,hsame,totalOf_fill (fun slotId hslotId =>
      mem_places.mpr ⟨hplace.1,hslotId⟩) hreserved',hremove.contents]
    have hupdate := totalOf_update (mem_places.mpr (getItem_place hget)) (contents b)
      (some { b.objects item with count := (b.objects item).count-splitedAmount }) entry
    rw [hcontents] at hupdate
    simp only [held,hsub] at hupdate
    rw [hobject]
    change _=totalOf (places b) (contents b) entry
    dsimp only
    split at hupdate
    · rename_i hentry
      rw [if_pos hentry]
      omega
    · rename_i hentry
      rw [if_neg hentry]
      omega

theorem reserved_whole {stack : Item} {max : UInt32} {slots : Place → Option Item} {place : Place}
    (hempty : slots place=none) (hslot : place.2 < GUILD_BANK_MAX_SLOTS)
    (hone : 1 ≤ stack.count.toNat) (hmax : stack.count ≤ max) :
    Reserved max stack.entry (fun slotId => slots (place.1,slotId)) [⟨place.2,stack.count⟩]
      stack.count.toNat := by
  refine ⟨List.nodup_singleton _,fun pos hpos => ?_,by simp⟩
  obtain rfl := List.mem_singleton.mp hpos
  exact ⟨hslot,hone,by rw [hempty]; exact hmax⟩

/-- Two stacks leave their slots and each is stored in the slot of the other. -/
theorem conserved_exchange {destItem : ℕ} (hstored : Stored b)
    (hitem : src.item=some item) (hget : getItem b src.place=some item)
    (hdest : dest.item=some destItem) (hgetDest : getItem b dest.place=some destItem)
    (hne : src.place≠dest.place) :
    Conserved b
      (storeItem
        (storeItem (removeItem (removeItem b player src dest 0) player dest src 0) dest.place.1 item
          [⟨dest.place.2,(b.objects item).count⟩])
        src.place.1 destItem [⟨src.place.2,(b.objects destItem).count⟩]) := by
  have hcontents : contents b src.place=some (b.objects item) := by
    rw [contents,hget]
    rfl
  have hcontentsDest : contents b dest.place=some (b.objects destItem) := by
    rw [contents,hgetDest]
    rfl
  obtain ⟨hone,hmax⟩ := hstored.sized _ _ hcontents
  obtain ⟨honeDest,hmaxDest⟩ := hstored.sized _ _ hcontentsDest
  have hplace := getItem_place hget
  have hplaceDest := getItem_place hgetDest
  have hitems : destItem≠item := fun heq => hne (hstored.apart _ _ item hget (heq ▸ hgetDest))
  -- both slots are emptied
  obtain ⟨hremove,hloose,hobject⟩ :=
    turns_removeItem player dest hstored hitem hget
  have hgetDest' : getItem (removeItem b player src dest 0) dest.place=some destItem := by
    rw [getItem_removeItem hitem hget,if_neg hne.symm,hgetDest]
  have hkept : contents (removeItem b player src dest 0) dest.place=
      some (b.objects destItem) := by
    rw [hremove.contents,Function.update_of_ne hne.symm,hcontentsDest]
  have hobjectDest : (removeItem b player src dest 0).objects destItem=b.objects destItem := by
    rw [contents,hgetDest'] at hkept
    exact Option.some.inj hkept
  generalize removeItem b player src dest 0=first at *
  obtain ⟨hclear,hlooseDest,hsameDest⟩ :=
    turns_removeItem player src hremove.stored hdest hgetDest'
  obtain ⟨hloose',hsame⟩ := hclear.loose item List.not_mem_nil hloose
  generalize removeItem first player dest src 0=second at *
  have hempty := hremove.trans hclear
  rw [hobject] at hsame
  rw [hobjectDest] at hsameDest
  have hslots : contents second=
      Function.update (Function.update (contents b) src.place none) dest.place none := by
    rw [hclear.contents,hremove.contents]
  -- each is stored in the slot of the other
  have hreserved : Reserved (getMaxStackCount b (b.objects item).entry) (b.objects item).entry
      (fun slotId => contents second (dest.place.1,slotId))
      [⟨dest.place.2,(b.objects item).count⟩] (b.objects item).count.toNat :=
    reserved_whole (by rw [hslots,Function.update_self]) hplaceDest.2 hone hmax
  have hstore := turns_storeItem (b := second) hclear.stored hloose'
    (hempty.tabs ▸ hplaceDest.1) (by
      rw [hsame,getMaxStackCount,hempty.stackable]
      exact hreserved)
  obtain ⟨hlooseDest',hsameDest'⟩ := hstore.loose destItem (by simpa using hitems) hlooseDest
  rw [hsame] at hstore
  rw [hsameDest] at hsameDest'
  generalize storeItem second dest.place.1 item [⟨dest.place.2,(b.objects item).count⟩]=third
    at *
  have hfree : contents third src.place=none := by
    rw [hstore.contents,fill_elsewhere (by simpa using hne),hslots,
      Function.update_of_ne hne,Function.update_self]
  have hthird := hempty.trans hstore
  have hreservedDest : Reserved (getMaxStackCount b (b.objects destItem).entry)
      (b.objects destItem).entry (fun slotId => contents third (src.place.1,slotId))
      [⟨src.place.2,(b.objects destItem).count⟩] (b.objects destItem).count.toNat :=
    reserved_whole hfree hplace.2 honeDest hmaxDest
  have hlast := turns_storeItem (b := third) hstore.stored hlooseDest'
    (hthird.tabs ▸ hplace.1) (by
      rw [hsameDest',getMaxStackCount,hthird.stackable]
      exact hreservedDest)
  rw [hsameDest'] at hlast
  have hturns := hthird.trans hlast
  refine ⟨hlast.stored,hturns.tabs,hturns.stackable,fun entry => ?_⟩
  rw [total_eq hturns,totalOf_fill (fun slotId hslotId =>
    mem_places.mpr ⟨hplace.1,hslotId⟩) hreservedDest,hstore.contents,
    totalOf_fill (fun slotId hslotId => mem_places.mpr ⟨hplaceDest.1,hslotId⟩) hreserved,hslots]
  have hfirst := totalOf_update (mem_places.mpr hplace) (contents b) none entry
  have hsecond := totalOf_update (mem_places.mpr hplaceDest)
    (Function.update (contents b) src.place none) none entry
  rw [hcontents] at hfirst
  rw [Function.update_of_ne hne.symm,hcontentsDest] at hsecond
  simp only [held,add_zero] at hfirst hsecond
  change _=totalOf (places b) (contents b) entry
  omega

variable (src dest) in
/-- Two stacks change places. -/
theorem doItemsMove_swap {destItem : ℕ} (hstored : Stored b)
    (hitem : src.item=some item) (hget : getItem b src.place=some item)
    (hdest : dest.item=some destItem) (hgetDest : getItem b dest.place=some destItem)
    (hne : src.place≠dest.place) (h : (doItemsMove b player src dest 0).2=true) :
    Conserved b (doItemsMove b player src dest 0).1 := by
  have hsized := (hstored.sized src.place (b.objects item) (by rw [contents,hget]; rfl)).2
  have hsizedDest :=
    (hstored.sized dest.place (b.objects destItem) (by rw [contents,hgetDest]; rfl)).2
  unfold doItemsMove at h ⊢
  rw [if_neg (not_not.mpr rfl),hitem,hdest] at h ⊢
  dsimp only [Option.isSome_some] at h ⊢
  cases hcan : canStore b dest item true with
  | error result =>
    rw [hcan] at h
    cases h
  | ok destVec =>
    cases hcan' : canStore b src destItem true with
    | error result =>
      rw [hcan,hcan'] at h
      cases h
    | ok srcVec =>
      obtain rfl := canStore_swap (getItem_place hgetDest).2 hsized hcan
      obtain rfl := canStore_swap (getItem_place hget).2 hsizedDest hcan'
      exact conserved_exchange hstored hitem hget hdest hgetDest hne

/-- A move that goes through has passed the checks for space. -/
theorem doItemsMove_storable {splitedAmount : UInt32}
    (h : (doItemsMove b player src dest splitedAmount).2=true) :
    ∃ srcItem,(if splitedAmount≠0 then src.clonedItem else src.item)=some srcItem ∧
      (canStore b dest srcItem dest.item.isSome).isOk=true ∧
      ∀ destItem,dest.item=some destItem → (canStore b src destItem true).isOk=true := by
  unfold doItemsMove at h
  split at h
  · cases h
  rename_i srcItem hsrc
  split at h
  · cases h
  rename_i destVec hdest
  refine ⟨srcItem,hsrc,by rw [hdest]; rfl,fun destItem hitem => ?_⟩
  rw [hitem] at h
  dsimp only at h
  split at h
  · cases h
  · rename_i srcVec hsrcVec
    rw [hsrcVec]
    rfl

end Moves

/-- The checks of a move: a part of the stack, if it is one, has to find space, and
a whole stack too or it has to change places with another. -/
def Accepted (b : Bank) (player : UInt32) (place destPlace : Place) (splitedAmount : UInt32) :
    Prop :=
  ∃ item,getItem b place=some item ∧ splitedAmount ≤ (b.objects item).count ∧
    hasStoreRights b player ⟨destPlace,none,none⟩ ⟨place,none,none⟩=true ∧
    hasWithdrawRights b player ⟨place,none,none⟩ ⟨destPlace,none,none⟩=true ∧
    if splitedAmount≠0 ∧ splitedAmount≠(b.objects item).count then
      (canStore (cloned b item splitedAmount) ⟨destPlace,none,none⟩ b.next false).isOk=true
    else
      (canStore b ⟨destPlace,none,none⟩ item false).isOk=true ∨
      ∃ destItem,getItem b destPlace=some destItem ∧
        hasStoreRights b player ⟨place,none,none⟩ ⟨destPlace,none,none⟩=true ∧
        hasWithdrawRights b player ⟨destPlace,none,none⟩ ⟨place,none,none⟩=true ∧
        (canStore b ⟨destPlace,none,none⟩ item true).isOk=true ∧
        (canStore b ⟨place,none,none⟩ destItem true).isOk=true

/-- A move that conserves, and that goes through only if it may. -/
structure Settled (b : Bank) (player : UInt32) (place destPlace : Place) (splitedAmount : UInt32)
    (r : Bank×Bool) : Prop where
  /-- Nothing is lost. -/
  conserved : Conserved b r.1
  /-- Refused, it changes nothing. -/
  refused : r.2=false → Same b r.1
  /-- It goes through on the checks. -/
  accepted : r.2=true → Accepted b player place destPlace splitedAmount

section SwapItems
variable {b : Bank} {player : UInt32} {place destPlace : Place} {splitedAmount : UInt32}

theorem eq_true_of_not {x : Bool} (h : ¬(!x)=true) : x=true := by
  cases x with
  | false => exact absurd rfl h
  | true => rfl

theorem Conserved.refl (hstored : Stored b) : Conserved b b := ⟨hstored,rfl,rfl,fun _ => rfl⟩

theorem settled_refused (hstored : Stored b) :
    Settled b player place destPlace splitedAmount (b,false) :=
  ⟨.refl hstored,fun _ => ⟨rfl,rfl,rfl,fun _ => rfl⟩,fun h => by cases h⟩

/-- The second try, to swap, with the slots filled. -/
theorem settled_swapMove {item : ℕ} (hstored : Stored b) (hget : getItem b place=some item)
    (hne : place≠destPlace) (hcount : splitedAmount ≤ (b.objects item).count)
    (hwhole : ¬(splitedAmount≠0 ∧ splitedAmount≠(b.objects item).count))
    (hstore : hasStoreRights b player ⟨destPlace,none,none⟩ ⟨place,none,none⟩=true)
    (hwithdraw : hasWithdrawRights b player ⟨place,none,none⟩ ⟨destPlace,none,none⟩=true) :
    Settled b player place destPlace splitedAmount
      (swapMove b player ⟨place,some item,none⟩ ⟨destPlace,none,none⟩) := by
  unfold swapMove initItem
  cases hdest : getItem b destPlace with
  | none => exact settled_refused hstored
  | some destItem =>
    rw [if_neg (by simp)]
    split
    · exact settled_refused hstored
    rename_i hstore'
    split
    · exact settled_refused hstored
    rename_i hwithdraw'
    generalize hr : doItemsMove b player ⟨place,some item,none⟩
      ⟨destPlace,some destItem,none⟩ 0=r
    obtain ⟨after,moved⟩ := r
    cases moved with
    | false =>
      have hsame := doItemsMove_false (congrArg Prod.snd hr)
      rw [hr] at hsame
      obtain rfl := hsame
      exact settled_refused hstored
    | true =>
      have htrue := congrArg Prod.snd hr
      have hconserved := doItemsMove_swap ⟨place,some item,none⟩
        ⟨destPlace,some destItem,none⟩ hstored rfl hget rfl hdest hne htrue
      rw [hr] at hconserved
      obtain ⟨srcItem,hsrc,hspace,hback⟩ := doItemsMove_storable htrue
      obtain rfl := Option.some.inj hsrc
      refine ⟨hconserved,fun h => (by cases h),fun _ => ⟨item,hget,hcount,hstore,hwithdraw,?_⟩⟩
      rw [if_neg hwhole]
      exact Or.inr ⟨destItem,hdest,eq_true_of_not hstore',eq_true_of_not hwithdraw',hspace,
        hback destItem rfl⟩

/-- The clone of a part that cannot be stored is left over, and nothing else. -/
theorem same_cloned (hstored : Stored b) (item : ℕ) (count : UInt32) :
    Conserved b (cloned b item count) ∧ Same b (cloned b item count) := by
  have hturns := (turns_cloned hstored item count).1
  refine ⟨⟨hturns.stored,rfl,rfl,fun entry => ?_⟩,rfl,rfl,rfl,fun place => ?_⟩
  · exact total_eq hturns entry
  · rw [hturns.contents]

theorem settled_moveItems (hstored : Stored b) (hne : place≠destPlace)
    (hdest : destPlace.1 < b.tabs ∧ destPlace.2 < GUILD_BANK_MAX_SLOTS) :
    Settled b player place destPlace splitedAmount
      (moveItems b player ⟨place,none,none⟩ ⟨destPlace,none,none⟩ splitedAmount) := by
  unfold moveItems initItem
  cases hget : getItem b place with
  | none => exact settled_refused hstored
  | some item =>
    dsimp only
    split
    · exact settled_refused hstored
    rename_i hcount
    split
    · exact settled_refused hstored
    rename_i hstore
    split
    · exact settled_refused hstored
    rename_i hwithdraw
    have hcount' := UInt32.not_lt.mp hcount
    have hstore' : hasStoreRights b player ⟨destPlace,none,none⟩ ⟨place,none,none⟩=true :=
      eq_true_of_not hstore
    have hwithdraw' :
        hasWithdrawRights b player ⟨place,none,none⟩ ⟨destPlace,none,none⟩=true :=
      eq_true_of_not hwithdraw
    by_cases hpart : splitedAmount≠0 ∧ splitedAmount≠(b.objects item).count
    · -- a part of the stack
      have hcontents : contents b place=some (b.objects item) := by
        rw [contents,hget]
        rfl
      have hmax := UInt32.le_iff_toNat_le.mp (hstored.sized _ _ hcontents).2
      have hle := UInt32.le_iff_toNat_le.mp hcount'
      have hpos : 1 ≤ splitedAmount.toNat :=
        Nat.pos_of_ne_zero fun hzero => hpart.1 (UInt32.toNat_inj.mp hzero)
      have hlt : splitedAmount < (b.objects item).count :=
        UInt32.lt_of_le_of_ne hcount' hpart.2
      rw [if_neg hpart.2,if_pos hpart.1,cloneItem_eq hpos
        (UInt32.le_iff_toNat_le.mpr (by omega))]
      dsimp only
      obtain ⟨hturns,hloose,hobject⟩ := turns_cloned hstored item splitedAmount
      obtain ⟨hkept,hsame⟩ := same_cloned hstored item splitedAmount
      have hitem : (cloned b item splitedAmount).objects item=b.objects item :=
        Function.update_of_ne (hstored.allocated place item hget).ne _ _
      generalize hr : doItemsMove (cloned b item splitedAmount) player
        ⟨place,some item,some b.next⟩ ⟨destPlace,none,none⟩ splitedAmount=r
      obtain ⟨after,moved⟩ := r
      cases moved with
      | false =>
        have hafter := doItemsMove_false (congrArg Prod.snd hr)
        rw [hr] at hafter
        obtain rfl := hafter
        exact ⟨hkept,fun _ => hsame,fun h => by cases h⟩
      | true =>
        have htrue := congrArg Prod.snd hr
        have hmoved := doItemsMove_split ⟨place,some item,some b.next⟩
          ⟨destPlace,none,none⟩ hturns.stored rfl hget rfl hloose
          (by rw [hobject,hitem]) hpart.1 (by rw [hitem]; exact hlt) rfl hdest htrue
        rw [hr] at hmoved
        obtain ⟨srcItem,hsrc,hspace,-⟩ := doItemsMove_storable htrue
        rw [if_pos hpart.1] at hsrc
        obtain rfl := Option.some.inj hsrc
        refine ⟨⟨hmoved.stored,hmoved.tabs,hmoved.stackable,fun entry =>
          (hmoved.total entry).trans (hkept.total entry)⟩,fun h => (by cases h),
          fun _ => ⟨item,hget,hcount',hstore',hwithdraw',?_⟩⟩
        rw [if_pos hpart]
        exact hspace
    · -- the whole stack
      have hzero : (if splitedAmount=(b.objects item).count then 0 else splitedAmount)=0 := by
        split
        · rfl
        · rename_i hother
          exact not_not.mp fun hsome => hpart ⟨hsome,hother⟩
      rw [hzero,if_neg (not_not.mpr rfl)]
      generalize hr : doItemsMove b player ⟨place,some item,none⟩ ⟨destPlace,none,none⟩ 0=r
      obtain ⟨after,moved⟩ := r
      cases moved with
      | false =>
        have hafter := doItemsMove_false (congrArg Prod.snd hr)
        rw [hr] at hafter
        obtain rfl := hafter
        exact settled_swapMove hstored hget hne hcount' hpart hstore' hwithdraw'
      | true =>
        have htrue := congrArg Prod.snd hr
        have hmoved := doItemsMove_whole ⟨place,some item,none⟩
          ⟨destPlace,none,none⟩ hstored rfl hget rfl hdest htrue
        rw [hr] at hmoved
        obtain ⟨srcItem,hsrc,hspace,-⟩ := doItemsMove_storable htrue
        obtain rfl := Option.some.inj hsrc
        refine ⟨hmoved,fun h => (by cases h),
          fun _ => ⟨item,hget,hcount',hstore',hwithdraw',?_⟩⟩
        rw [if_neg hpart]
        exact Or.inl hspace

/-- `SwapItems` on a bank as it should be keeps it so and keeps the count of every
entry; and unless all its checks pass, it leaves the bank exactly as it was. -/
theorem guild_bank_items (b : Bank) (player : UInt32) (place destPlace : Place)
    (splitedAmount : UInt32) (hstored : Stored b) :
    Conserved b (swapItems b player place destPlace splitedAmount).1 ∧
    (¬Accepted b player place destPlace splitedAmount →
      Same b (swapItems b player place destPlace splitedAmount).1) := by
  have hsettled : Settled b player place destPlace splitedAmount
      (swapItems b player place destPlace splitedAmount) := by
    unfold swapItems
    split
    · exact settled_refused hstored
    rename_i hplaces
    obtain ⟨-,hplace⟩ := not_or.mp hplaces
    obtain ⟨-,hplace⟩ := not_or.mp hplace
    obtain ⟨htab,hslot⟩ := not_or.mp hplace
    split
    · exact settled_refused hstored
    · rename_i hne
      exact settled_moveItems hstored hne ⟨not_le.mp htab,not_le.mp hslot⟩
  refine ⟨hsettled.conserved,fun hrefused => hsettled.refused ?_⟩
  exact Bool.eq_false_iff.mpr fun htrue => hrefused (hsettled.accepted htrue)

end SwapItems

/-- A tab with two stacks of one entry in the slots 0 and 1. -/
def twoStacks : Bank where
  guild := { leaderGuid := 1, ranks := [], members := [], nodup := by decide }
  rightsAndSlots := fun _ _ => ⟨0,0⟩
  bankWithdraw := fun _ _ => 0
  stackable := fun _ => 20
  tabs := 1
  items := fun place => if place=(0,0) then some 0 else if place=(0,1) then some 1 else none
  objects := fun item => if item=0 then ⟨1,15,false⟩ else ⟨1,10,false⟩
  next := 2

theorem stored_twoStacks : Stored twoStacks := by
  have hget : ∀ place item,getItem twoStacks place=some item →
      place=(0,0) ∧ item=0 ∨ place=(0,1) ∧ item=1 := by
    intro place item h
    unfold getItem at h
    split at h
    · change (if place=(0,0) then some 0 else if place=(0,1) then some 1 else none)=some item at h
      split at h
      · exact Or.inl ⟨‹_›,(Option.some.inj h).symm⟩
      · split at h
        · exact Or.inr ⟨‹_›,(Option.some.inj h).symm⟩
        · cases h
    · cases h
  refine ⟨fun place item h => ?_,fun place place' item h h' => ?_,fun place item h => ?_⟩
  · rcases hget place item h with ⟨-,rfl⟩ | ⟨-,rfl⟩ <;> decide
  · rcases hget place item h with ⟨hplace,hitem⟩ | ⟨hplace,hitem⟩ <;>
      rcases hget place' item h' with ⟨hplace',hitem'⟩ | ⟨hplace',hitem'⟩
    · exact hplace.trans hplace'.symm
    · exact absurd (hitem.symm.trans hitem') (by decide)
    · exact absurd (hitem.symm.trans hitem') (by decide)
    · exact hplace.trans hplace'.symm
  · obtain ⟨pointer,hpointer,rfl⟩ := Option.map_eq_some_iff.mp h
    rcases hget place pointer hpointer with ⟨-,rfl⟩ | ⟨-,rfl⟩ <;> decide

/-- The first stack fills up the second and keeps the rest in its own slot. -/
theorem guild_bank_items_merged :
    total (swapItems twoStacks 1 (0,0) (0,1) 0).1 1=total twoStacks 1 ∧
    contents (swapItems twoStacks 1 (0,0) (0,1) 0).1 (0,0)=some ⟨1,5,false⟩ ∧
    contents (swapItems twoStacks 1 (0,0) (0,1) 0).1 (0,1)=some ⟨1,20,false⟩ :=
  ⟨(guild_bank_items twoStacks 1 (0,0) (0,1) 0 stored_twoStacks).1.total 1,by decide,by decide⟩

end Projectnelth.GuildBankItemMoves
