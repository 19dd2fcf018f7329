import Mathlib
import Projectnelth.ItemCountWalk

/-!
# Whether counting and destroying agree

The places of the three searches are put together from the same stretches, so that what is found
to be enough can be destroyed.
-/

namespace Projectnelth.ItemCountModel

namespace Inventory

variable {inv : Inventory} {p q : Pos}

theorem mem_slots {first last : ℕ} :
    q∈slots first last ↔ ∃ i, first ≤ i ∧ i < last ∧ q=.slot i := by
  unfold slots
  rw [List.mem_map]
  constructor
  · rintro ⟨i,hi,rfl⟩
    obtain ⟨hle,hlt⟩ := List.mem_range'_1.mp hi
    exact ⟨i,hle,by omega,rfl⟩
  · rintro ⟨i,hle,hlt,rfl⟩
    exact ⟨i,List.mem_range'_1.mpr ⟨hle,by omega⟩,rfl⟩

theorem mem_bags {first last : ℕ} :
    q∈inv.bags first last ↔
      ∃ b j, first ≤ b ∧ b < last ∧ j < (inv.bag b).length ∧ q=.inBag b j := by
  unfold bags
  rw [List.mem_flatMap]
  constructor
  · rintro ⟨b,hb,hq⟩
    obtain ⟨j,hj,rfl⟩ := List.mem_map.mp hq
    obtain ⟨hle,hlt⟩ := List.mem_range'_1.mp hb
    exact ⟨b,j,hle,by omega,List.mem_range.mp hj,rfl⟩
  · rintro ⟨b,j,hle,hlt,hj,rfl⟩
    exact ⟨b,List.mem_range'_1.mpr ⟨hle,by omega⟩,List.mem_map_of_mem (List.mem_range.mpr hj)⟩

theorem nodup_slots (first last : ℕ) : (slots first last).Nodup :=
  (List.nodup_range' ..).map fun _ _ h => Pos.slot.inj h

theorem nodup_bags (first last : ℕ) : (inv.bags first last).Nodup := by
  refine List.nodup_flatMap.mpr ⟨fun b _ => ?_,?_⟩
  · exact List.nodup_range.map fun _ _ h => (Pos.inBag.inj h).2
  refine (List.nodup_range' (s := first) (n := last-first)).imp fun {b c} hne => ?_
  intro q hb hc
  obtain ⟨j,_,rfl⟩ := List.mem_map.mp hb
  obtain ⟨k,_,heq⟩ := List.mem_map.mp hc
  exact hne (Pos.inBag.inj heq).1.symm

theorem slots_append {first middle last : ℕ} (h : first ≤ middle) (h' : middle ≤ last) :
    slots first last=slots first middle++slots middle last := by
  obtain ⟨m,rfl⟩ := Nat.exists_eq_add_of_le h
  obtain ⟨n,rfl⟩ := Nat.exists_eq_add_of_le h'
  unfold slots
  rw [← List.map_append,Nat.add_assoc,Nat.add_sub_cancel_left,Nat.add_sub_cancel_left,
    ← Nat.add_assoc,Nat.add_sub_cancel_left,List.range'_append_1]

/-- The places of two stretches are apart. -/
theorem slots_disjoint {a b c d : ℕ} (h : b ≤ c) : List.Disjoint (slots a b) (slots c d) := by
  intro q hq hq'
  obtain ⟨i,_,hi,rfl⟩ := mem_slots.mp hq
  obtain ⟨i',hi',_,heq⟩ := mem_slots.mp hq'
  have hsame := Pos.slot.inj heq
  omega

theorem slots_disjoint_bags {a b c d : ℕ} : List.Disjoint (slots a b) (inv.bags c d) := by
  intro q hq hq'
  obtain ⟨i,_,_,rfl⟩ := mem_slots.mp hq
  obtain ⟨b,j,_,_,_,heq⟩ := mem_bags.mp hq'
  cases heq

theorem bags_disjoint {a b c d : ℕ} (h : b ≤ c) :
    List.Disjoint (inv.bags a b) (inv.bags c d) := by
  intro q hq hq'
  obtain ⟨i,j,_,hi,_,rfl⟩ := mem_bags.mp hq
  obtain ⟨i',j',hi',_,_,heq⟩ := mem_bags.mp hq'
  have hsame := (Pos.inBag.inj heq).1
  omega

/-- No place is gone through twice. -/
theorem nodup_destroyPlaces : inv.destroyPlaces.Nodup := by
  unfold destroyPlaces
  have h1 : (slots 23 39++inv.bags 19 23).Nodup :=
    (nodup_slots 23 39).append (nodup_bags 19 23) slots_disjoint_bags
  have h2 : (slots 23 39++inv.bags 19 23++slots 0 23).Nodup :=
    h1.append (nodup_slots 0 23) (List.disjoint_append_left.mpr
      ⟨fun q hq hq' => slots_disjoint (Nat.le_refl 23) hq' hq,
        fun q hq hq' => slots_disjoint_bags hq' hq⟩)
  have h3 : (slots 23 39++inv.bags 19 23++slots 0 23++slots 39 67).Nodup :=
    h2.append (nodup_slots 39 67) (List.disjoint_append_left.mpr
      ⟨List.disjoint_append_left.mpr ⟨slots_disjoint (Nat.le_refl 39),
        fun q hq hq' => slots_disjoint_bags hq' hq⟩,slots_disjoint (by decide)⟩)
  exact h3.append (nodup_bags 67 74) (List.disjoint_append_left.mpr
    ⟨List.disjoint_append_left.mpr ⟨List.disjoint_append_left.mpr
      ⟨slots_disjoint_bags,bags_disjoint (by decide)⟩,slots_disjoint_bags⟩,slots_disjoint_bags⟩)

theorem pairwise_append_slots {L : List Pos} {a b : ℕ}
    (h : L.Pairwise fun p q => ∀ b j, p=.slot b → q≠.inBag b j) :
    (L++slots a b).Pairwise fun p q => ∀ b j, p=.slot b → q≠.inBag b j := by
  have hslots : ∀ q∈slots a b, ∀ p : Pos, ∀ b j, p=.slot b → q≠.inBag b j := by
    intro q hq p b j _
    obtain ⟨i,_,_,rfl⟩ := mem_slots.mp hq
    rintro ⟨⟩
  refine List.pairwise_append.mpr ⟨h,?_,fun p _ q hq => hslots q hq p⟩
  exact List.pairwise_of_forall_mem_list fun p _ q hq => hslots q hq p

/-- What is met before the places of bags is no such bag. -/
theorem pairwise_append_bags {L : List Pos} {c d : ℕ}
    (h : L.Pairwise fun p q => ∀ b j, p=.slot b → q≠.inBag b j)
    (hL : ∀ i, .slot i∈L → i < c ∨ d ≤ i) :
    (L++inv.bags c d).Pairwise fun p q => ∀ b j, p=.slot b → q≠.inBag b j := by
  refine List.pairwise_append.mpr ⟨h,?_,fun p hp q hq b j hpb hqb => ?_⟩
  · refine List.pairwise_of_forall_mem_list fun p hp q _ b j hpb => ?_
    obtain ⟨b',j',_,_,_,rfl⟩ := mem_bags.mp hp
    cases hpb
  · obtain ⟨b',j',hle,hlt,_,rfl⟩ := mem_bags.mp hq
    rw [hpb] at hp
    have hsame := (Pos.inBag.inj hqb).1
    rcases hL b hp with h' | h' <;> omega

theorem slot_mem_slots {i a b : ℕ} : Pos.slot i∈slots a b ↔ a ≤ i ∧ i < b := by
  rw [mem_slots]
  exact ⟨fun ⟨_,hle,hlt,heq⟩ => Pos.slot.inj heq ▸ ⟨hle,hlt⟩,fun h => ⟨i,h.1,h.2,rfl⟩⟩

theorem slot_not_mem_bags {i a b : ℕ} : Pos.slot i∉inv.bags a b := fun h => by
  obtain ⟨_,_,_,_,_,heq⟩ := mem_bags.mp h
  cases heq

theorem slot_mem_destroyPlaces {i : ℕ} : Pos.slot i∈inv.destroyPlaces ↔ i < 67 := by
  unfold destroyPlaces
  simp only [List.mem_append,slot_mem_slots,slot_not_mem_bags,or_false]
  omega

/-- What lies in a bag lies within its size, in the bag of a slot for bags. -/
theorem lt_of_get_inBag {b j : ℕ} (h : (inv.GetItemByPos (.inBag b j)).isSome) :
    isBagSlot b=true ∧ j < (inv.bag b).length := by
  rw [get_inBag] at h
  cases hget : (inv.bag b)[j]? with
  | none =>
    rw [hget] at h
    cases h
  | some o =>
    have hlt := (List.getElem?_eq_some_iff.mp hget).1
    refine ⟨?_,hlt⟩
    by_contra hbag
    have hnil : inv.bag b=[] := by
      unfold bag
      rw [Bool.not_eq_true _ |>.mp hbag,Bool.false_and]
      rfl
    rw [hnil] at hlt
    cases hlt

/-- The places of `DestroyItemCount` are in order. -/
theorem ordered_destroyPlaces : Request.Ordered inv inv.destroyPlaces where
  nodup := nodup_destroyPlaces
  bags := by
    have h0 : (slots 23 39).Pairwise fun p q => ∀ b j, p=.slot b → q≠.inBag b j :=
      pairwise_append_slots (L := []) (a := 23) (b := 39) List.Pairwise.nil
    have h1 := @pairwise_append_bags inv _ 19 23 h0 fun i hi =>
      Or.inr (slot_mem_slots.mp hi).1
    have h2 := pairwise_append_slots (a := 39) (b := 67)
      (pairwise_append_slots (a := 0) (b := 23) h1)
    refine pairwise_append_bags h2 fun i hi => Or.inl ?_
    simp only [List.mem_append,slot_mem_slots,slot_not_mem_bags,or_false] at hi
    omega
  all b j hb hsome := by
    obtain ⟨hbag,hj⟩ := lt_of_get_inBag hsome
    have hlt := slot_mem_destroyPlaces.mp hb
    have hrange : 19 ≤ b ∧ b < 23 := by
      unfold isBagSlot at hbag
      simp only [Bool.or_eq_true,Bool.and_eq_true,decide_eq_true_eq] at hbag
      omega
    unfold destroyPlaces
    simp only [List.mem_append]
    exact Or.inl (Or.inl (Or.inl (Or.inr (mem_bags.mpr ⟨b,j,hrange.1,hrange.2,hj,rfl⟩))))

/-- All the places. -/
def everything (inv : Inventory) : List Pos := slots 0 74++inv.bags 19 23++inv.bags 67 74

end Inventory

open Inventory

/-- The units of an entry in a place, in trade or not. -/
def owned (itemEntry : ℕ) (inv : Inventory) (p : Pos) : ℕ :=
  (inv.GetItemByPos p).elim 0 fun item => if item.entry=itemEntry then item.count else 0

/-- The units of an entry in the places of an inventory. -/
def ownedIn (itemEntry : ℕ) (places : List Pos) (inv : Inventory) : ℕ :=
  (places.map (owned itemEntry inv)).sum

namespace Request

/-- `DestroyItemCount`. -/
def perform (r : Request) (inv : Inventory) : Inventory :=
  inv.DestroyItemCount r.blocked r.itemEntry r.count r.unequip_check

/-- What is destroyed is what was asked for. -/
structure Exact (r : Request) (inv final : Inventory) : Prop where
  /-- As many units go as are wanted and found. -/
  removed : ownedIn r.itemEntry inv.everything inv=ownedIn r.itemEntry inv.everything final+
    min r.count (inv.destroyPlaces.map (r.found inv)).sum
  /-- What is not found, or exempted, stays. -/
  others : ∀ q, ¬(q∈inv.destroyPlaces ∧ r.taken inv q=true) →
    final.GetItemByPos q=inv.GetItemByPos q
  /-- What stays of a stack is not nothing. -/
  kept : ∀ q, final.GetItemByPos q=inv.GetItemByPos q ∨ final.GetItemByPos q=none ∨
    ∃ item c, inv.GetItemByPos q=some item ∧ 0 < c ∧ c < item.count ∧
      final.GetItemByPos q=some { item with count := c }

/-- What is to hold of the three searches. -/
structure Agrees (r : Request) (inv : Inventory) : Prop where
  /-- What is destroyed is what was asked for. -/
  exact : Exact r inv (r.perform inv)
  /-- What the player has without the bank can be destroyed. -/
  enough : inv.HasItemCount r.itemEntry r.count false=true → r.unequip_check=false →
    ownedIn r.itemEntry inv.everything inv=
      ownedIn r.itemEntry inv.everything (r.perform inv)+r.count
  counted : ∀ inBankAlso, inv.HasItemCount r.itemEntry r.count inBankAlso=true ↔
    r.count ≤ inv.countLoop (counts r.itemEntry) (inv.hasPlaces inBankAlso) 0

/-- The loops of `DestroyItemCount` meet nothing they should not touch. -/
def Fits (r : Request) (inv : Inventory) : Prop := r.fits inv inv.destroyPlaces 0=true

instance (r : Request) (inv : Inventory) : Decidable (r.Fits inv) := by
  unfold Fits
  infer_instance

variable {r : Request} {inv final : Inventory} {p q : Pos}

/-- The units that are in trade. -/
def traded (r : Request) (inv : Inventory) (p : Pos) : ℕ :=
  (inv.GetItemByPos p).elim 0 fun item =>
    if item.entry=r.itemEntry ∧ item.inTrade=true then item.count else 0

/-- The units of an entry are those that the search finds and those in trade. -/
theorem owned_eq : owned r.itemEntry inv p=r.units inv p+r.traded inv p := by
  unfold owned units traded counts
  cases inv.GetItemByPos p with
  | none => rfl
  | some item =>
    dsimp only [Option.elim]
    by_cases hentry : item.entry=r.itemEntry
    · cases htrade : item.inTrade with
      | true => simp only [hentry,decide_true,Bool.not_true,Bool.and_false,Bool.false_eq_true,
          if_true,if_false,and_self,Nat.zero_add]
      | false => simp only [hentry,decide_true,Bool.not_false,Bool.and_self,Bool.false_eq_true,
          if_true,if_false,and_false,Nat.add_zero]
    · simp only [hentry,decide_false,Bool.false_and,Bool.false_eq_true,if_false,false_and,
        Nat.add_zero]

theorem traded_eq (hothers : ∀ q, ¬(q∈inv.destroyPlaces ∧ r.taken inv q=true) →
      final.GetItemByPos q=inv.GetItemByPos q)
    (hkept : ∀ q, final.GetItemByPos q=inv.GetItemByPos q ∨ final.GetItemByPos q=none ∨
      ∃ item c, inv.GetItemByPos q=some item ∧ 0 < c ∧ c < item.count ∧
        final.GetItemByPos q=some { item with count := c }) :
    r.traded final q=r.traded inv q := by
  by_cases htaken : q∈inv.destroyPlaces ∧ r.taken inv q=true
  · have hfinds : r.finds inv q=true := by
      have h := htaken.2
      unfold taken at h
      rw [Bool.and_eq_true] at h
      exact h.1
    have hzero : ∀ item, inv.GetItemByPos q=some item → item.inTrade=false := fun item hitem => by
      rw [finds_eq hitem] at hfinds
      unfold counts at hfinds
      rw [Bool.and_eq_true] at hfinds
      exact (Bool.not_eq_true' _).mp hfinds.2
    have hinv : r.traded inv q=0 := by
      unfold traded
      cases hitem : inv.GetItemByPos q with
      | none => rfl
      | some item => exact if_neg fun h => Bool.false_ne_true ((hzero item hitem).symm.trans h.2)
    rcases hkept q with heq | heq | ⟨item,c,hitem,_,_,heq⟩
    · unfold traded
      rw [heq]
    · rw [hinv]
      unfold traded
      rw [heq]
      rfl
    · rw [hinv]
      unfold traded
      rw [heq]
      exact if_neg fun h => Bool.false_ne_true ((hzero item hitem).symm.trans h.2)
  · unfold traded
    rw [hothers q htaken]

/-- The units over all places are those over the places that are gone through and over the bags
of the bank themselves. -/
theorem sum_everything (f : Pos → ℕ) (inv : Inventory) :
    (inv.everything.map f).sum=(inv.destroyPlaces.map f).sum+((slots 67 74).map f).sum := by
  have h1 : slots 0 74=slots 0 23++slots 23 39++slots 39 67++slots 67 74 := by
    rw [← slots_append (by decide) (by decide),← slots_append (by decide) (by decide),
      ← slots_append (by decide) (by decide)]
  unfold everything destroyPlaces
  rw [h1]
  simp only [List.map_append,List.sum_append]
  omega

/-- `HasItemCount` goes through places that `DestroyItemCount` goes through. -/
theorem sum_hasPlaces_le (f : Pos → ℕ) (inv : Inventory) (inBankAlso : Bool) :
    ((inv.hasPlaces inBankAlso).map f).sum ≤ (inv.destroyPlaces.map f).sum := by
  unfold hasPlaces destroyPlaces
  rw [@slots_append 0 23 39 (by decide) (by decide)]
  cases inBankAlso with
  | true =>
    rw [if_pos rfl]
    simp only [List.map_append,List.sum_append]
    omega
  | false =>
    rw [if_neg Bool.false_ne_true]
    simp only [List.map_append,List.sum_append,List.map_nil,List.sum_nil]
    omega

/-- The loops of `HasItemCount` find out whether there is enough. -/
theorem hasLoop_iff {ps : List Pos} : ∀ {tempcount : ℕ}, tempcount < r.count →
    tempcount+(ps.map (r.units inv)).sum < 2^32 →
    (inv.hasLoop r.itemEntry r.count ps tempcount=true ↔
      r.count ≤ tempcount+(ps.map (r.units inv)).sum) := by
  induction ps with
  | nil =>
    intro tempcount htemp _
    simp only [List.map_nil,List.sum_nil,Nat.add_zero]
    exact ⟨(fun h => by cases h),fun hle => absurd htemp (Nat.not_lt.mpr hle)⟩
  | cons p ps ih =>
    intro tempcount htemp hsum
    rw [List.map_cons,List.sum_cons] at hsum ⊢
    unfold hasLoop
    cases hitem : inv.GetItemByPos p with
    | none =>
      rw [units_none hitem,Nat.zero_add] at hsum ⊢
      exact ih htemp hsum
    | some item =>
      dsimp only
      rw [← finds_eq hitem]
      cases hfinds : r.finds inv p with
      | false =>
        rw [units_eq_zero hfinds,Nat.zero_add] at hsum ⊢
        exact ih htemp hsum
      | true =>
        rw [units_eq hitem hfinds] at hsum ⊢
        rw [if_pos rfl,Nat.mod_eq_of_lt (by omega)]
        by_cases hle : r.count ≤ tempcount+item.count
        · rw [if_pos hle]
          exact ⟨fun _ => by omega,fun _ => rfl⟩
        · rw [if_neg hle,← Nat.add_assoc]
          exact ih (Nat.lt_of_not_le hle) (by omega)

/-- The loops of `GetItemCount` count what is not in trade. -/
theorem countLoop_eq {ps : List Pos} : ∀ {count : ℕ},
    count+(ps.map (r.units inv)).sum < 2^32 →
    inv.countLoop (counts r.itemEntry) ps count=count+(ps.map (r.units inv)).sum := by
  induction ps with
  | nil => exact fun _ => rfl
  | cons p ps ih =>
    intro count hsum
    rw [List.map_cons,List.sum_cons] at hsum ⊢
    unfold countLoop
    cases hitem : inv.GetItemByPos p with
    | none =>
      rw [units_none hitem,Nat.zero_add] at hsum ⊢
      exact ih hsum
    | some item =>
      dsimp only
      rw [← finds_eq hitem]
      cases hfinds : r.finds inv p with
      | false =>
        rw [units_eq_zero hfinds,Nat.zero_add] at hsum ⊢
        exact ih hsum
      | true =>
        rw [units_eq hitem hfinds] at hsum ⊢
        rw [if_pos rfl,Nat.mod_eq_of_lt (by omega),← Nat.add_assoc]
        exact ih (by omega)

/-- The units of an entry are those that are found and those in trade. -/
theorem ownedIn_eq (ps : List Pos) (inv : Inventory) :
    ownedIn r.itemEntry ps inv=(ps.map (r.units inv)).sum+(ps.map (r.traded inv)).sum := by
  rw [← List.sum_map_add]
  exact congrArg List.sum (List.map_congr_left fun q _ => owned_eq)

theorem Outcome.exact (h : Outcome r inv inv.destroyPlaces 0 inv final) : Exact r inv final := by
  refine ⟨?_,h.others,h.kept⟩
  have htotal := h.total
  have hbank : ((slots 67 74).map (r.units final)).sum=((slots 67 74).map (r.units inv)).sum :=
    sum_units_congr fun q hq => h.others q fun hq' => by
      obtain ⟨i,hi,_,rfl⟩ := mem_slots.mp hq
      exact absurd (slot_mem_destroyPlaces.mp hq'.1) (Nat.not_lt.mpr hi)
  have htraded : (inv.everything.map (r.traded final)).sum=
      (inv.everything.map (r.traded inv)).sum :=
    congrArg List.sum (List.map_congr_left fun q _ => traded_eq h.others h.kept)
  rw [ownedIn_eq,ownedIn_eq,htraded,sum_everything (r.units inv),sum_everything (r.units final),
    hbank]
  rw [Nat.zero_add,Nat.add_zero] at htotal
  omega

/-- Where nothing of the entry is in trade, `GetItemCount` without the bank counts what
`HasItemCount` goes through. -/
theorem GetItemCount_eq {itemEntry : ℕ} (h : ∀ p item, inv.GetItemByPos p=some item →
      item.entry=itemEntry → item.inTrade=false) :
    inv.GetItemCount itemEntry false=
      inv.countLoop (counts itemEntry) (inv.hasPlaces false) 0 := by
  have hloop : ∀ (ps : List Pos) (count : ℕ),
      inv.countLoop (fun item => item.entry=itemEntry) ps count=
        inv.countLoop (counts itemEntry) ps count := by
    intro ps
    induction ps with
    | nil => exact fun _ => rfl
    | cons p ps ih =>
      intro count
      unfold countLoop
      cases hitem : inv.GetItemByPos p with
      | none => exact ih count
      | some item =>
        have hkeep : counts itemEntry item=decide (item.entry=itemEntry) := by
          unfold counts
          by_cases hentry : item.entry=itemEntry
          · rw [h p item hitem hentry,Bool.not_false,Bool.and_true]
          · rw [decide_eq_false hentry,Bool.false_and]
        dsimp only
        rw [hkeep]
        exact ih _
  exact hloop _ 0

/-- Where the units that can be found add up to a number of 32 bits, counting and destroying agree just
where the loops meet no stack that is exempted and more than what is still wanted, and destroy no
bag that contains something else. -/
theorem counting_agrees_iff {r : Request} {inv : Inventory} (hcount : 1 ≤ r.count)
    (hbits : r.count < 2^32) (hsum : (inv.destroyPlaces.map (r.units inv)).sum < 2^32) :
    r.Agrees inv ↔ r.Fits inv := by
  have hstart : 0+(inv.destroyPlaces.map (r.units inv)).sum < 2^32 := by
    rw [Nat.zero_add]
    exact hsum
  constructor
  · intro h
    by_contra hfits
    obtain ⟨q,htaken,hne⟩ := @Walked.violates _ _ _ ordered_destroyPlaces hbits _ [] _ _
      (List.nil_append _) Walked.start hcount hstart (Bool.eq_false_iff.mpr hfits)
    refine hne (h.exact.others q fun hq => ?_)
    rw [htaken] at hq
    cases hq.2
  · intro hfits
    have hexact := (@Walked.outcome _ _ _ ordered_destroyPlaces hbits _ [] _ _
      (List.nil_append _) Walked.start hcount hstart hfits).exact
    have hhas : ∀ inBankAlso, 0+((inv.hasPlaces inBankAlso).map (r.units inv)).sum < 2^32 :=
      fun inBankAlso => by
        have hle := sum_hasPlaces_le (r.units inv) inv inBankAlso
        omega
    have hiff : ∀ inBankAlso, inv.HasItemCount r.itemEntry r.count inBankAlso=true ↔
        r.count ≤ 0+((inv.hasPlaces inBankAlso).map (r.units inv)).sum :=
      fun inBankAlso => hasLoop_iff hcount (hhas inBankAlso)
    refine ⟨hexact,fun henough hcheck => ?_,fun inBankAlso => ?_⟩
    · have hfound : inv.destroyPlaces.map (r.found inv)=inv.destroyPlaces.map (r.units inv) := by
        refine List.map_congr_left fun q _ => ?_
        have hexempt : r.exempt inv q=false := by
          cases q with
          | slot i =>
            unfold exempt
            dsimp only
            rw [hcheck]
            rfl
          | inBag b j => rfl
        unfold found taken
        rw [hexempt,Bool.not_false,Bool.and_true]
        cases hfinds : r.finds inv q with
        | true => rfl
        | false => exact (units_eq_zero hfinds).symm
      have hle := (hiff false).mp henough
      have hplaces := sum_hasPlaces_le (r.units inv) inv false
      have hremoved := hexact.removed
      rw [hfound,Nat.min_eq_left (by omega)] at hremoved
      exact hremoved
    · rw [countLoop_eq (hhas inBankAlso)]
      exact hiff inBankAlso

section Samples

/-- A bag in a slot for bags with two stacks in it, and another stack beside it. -/
def pack : Inventory where
  m_items i := if i=19 then some ⟨7,1,false⟩ else if i=23 then some ⟨5,3,false⟩ else none
  m_bagslot i := if i=19 then [some ⟨5,4,false⟩,none,some ⟨8,1,false⟩] else []

/-- A stack in a slot of the equipment. -/
def quiver : Inventory where
  m_items i := if i=17 then some ⟨9,20,false⟩ else none
  m_bagslot _ := []

theorem counting_agrees_pack :
    (⟨fun _ => false,5,6,false⟩ : Request).Agrees pack ∧
      ¬(⟨fun _ => false,7,1,false⟩ : Request).Agrees pack :=
  ⟨(counting_agrees_iff (by decide) (by decide) (by decide)).mpr (by decide),
    fun h => absurd ((counting_agrees_iff (by decide) (by decide) (by decide)).mp h) (by decide)⟩

/-- A bag that the player has is destroyed with what else it contains; and of a stack that may
not be unequipped a part is destroyed all the same. -/
theorem bag_and_quiver_spoilt :
    pack.HasItemCount 7 1 false=true ∧
    (pack.DestroyItemCount (fun _ => false) 7 1 false).GetItemByPos (.inBag 19 2)=none ∧
    ¬(⟨fun _ => false,7,1,false⟩ : Request).Agrees pack ∧
    (quiver.DestroyItemCount (fun _ => true) 9 5 true).GetItemByPos (.slot 17)=
      some ⟨9,15,false⟩ ∧
    ¬(⟨fun _ => true,9,5,true⟩ : Request).Agrees quiver := by
  refine ⟨by decide,by decide,fun h => ?_,by decide,fun h => ?_⟩
  · exact absurd (h.exact.others (.inBag 19 2) (by decide)) (by decide)
  · exact absurd (h.exact.others (.slot 17) (by decide)) (by decide)

end Samples

end Request

end Projectnelth.ItemCountModel
