import Mathlib
import Projectnelth.ItemCountPlaces

/-!
# The walk that destroys items

Along the places nothing is met that the walk changed before, so that what it takes is decided by
the inventory it starts from. Two kinds of steps touch what they should not: a stack that may not
be unequipped is reduced where it is more than what is still wanted, and a bag is destroyed with
what it contains.
-/

namespace Projectnelth.ItemCountModel

/-- What is to be destroyed. -/
structure Request where
  /-- The slots with a reason not to unequip what they hold, besides what it contains. -/
  blocked : ℕ → Bool
  itemEntry : ℕ
  count : ℕ
  unequip_check : Bool

namespace Request

/-- The search finds something in a place. -/
def finds (r : Request) (inv : Inventory) (p : Pos) : Bool :=
  (inv.GetItemByPos p).any (counts r.itemEntry)

/-- The units that the search finds in a place. -/
def units (r : Request) (inv : Inventory) (p : Pos) : ℕ :=
  (inv.GetItemByPos p).elim 0 fun item => if counts r.itemEntry item then item.count else 0

/-- The bag in a slot contains something that the search does not find. -/
def mixed (r : Request) (inv : Inventory) (i : ℕ) : Bool :=
  (inv.bag i).any fun o => o.any fun item => !counts r.itemEntry item

/-- What is in a place is a bag that contains something else. -/
def spoils (r : Request) (inv : Inventory) : Pos → Bool
  | .slot i => r.mixed inv i
  | .inBag _ _ => false

/-- The unequip check exempts what is in a place. -/
def exempt (r : Request) (inv : Inventory) : Pos → Bool
  | .slot i => r.unequip_check && (decide (i < 23) && (r.blocked i || r.mixed inv i))
  | .inBag _ _ => false

/-- The search finds something in a place that is not exempted. -/
def taken (r : Request) (inv : Inventory) (p : Pos) : Bool := r.finds inv p && !r.exempt inv p

/-- The units that are found and not exempted. -/
def found (r : Request) (inv : Inventory) (p : Pos) : ℕ :=
  if r.taken inv p then r.units inv p else 0

/-- Nothing that is exempted is met that is more than what is still wanted, and nothing is
destroyed that contains something else. -/
def fits (r : Request) (inv : Inventory) : List Pos → ℕ → Bool
  | [],_ => true
  | p::ps,remcount =>
    if r.finds inv p then
      if r.units inv p+remcount ≤ r.count then
        if r.exempt inv p then r.fits inv ps remcount
        else !r.spoils inv p &&
          (decide (r.count ≤ r.units inv p+remcount) || r.fits inv ps (r.units inv p+remcount))
      else !r.exempt inv p
    else r.fits inv ps remcount

variable {r : Request} {inv : Inventory} {p q : Pos} {item : Item}

theorem finds_eq (h : inv.GetItemByPos p=some item) :
    r.finds inv p=counts r.itemEntry item := by
  unfold finds
  rw [h]
  rfl

theorem finds_none (h : inv.GetItemByPos p=none) : r.finds inv p=false := by
  unfold finds
  rw [h]
  rfl

theorem units_eq (h : inv.GetItemByPos p=some item) (hfinds : r.finds inv p=true) :
    r.units inv p=item.count := by
  rw [finds_eq h] at hfinds
  unfold units
  rw [h]
  exact if_pos hfinds

theorem units_none (h : inv.GetItemByPos p=none) : r.units inv p=0 := by
  unfold units
  rw [h]
  rfl

theorem units_eq_zero (hfinds : r.finds inv p=false) : r.units inv p=0 := by
  cases hitem : inv.GetItemByPos p with
  | none => exact units_none hitem
  | some item =>
    rw [finds_eq hitem] at hfinds
    unfold units
    rw [hitem]
    exact if_neg (by rw [hfinds]; exact Bool.false_ne_true)

theorem units_congr {inv' : Inventory} (h : inv'.GetItemByPos p=inv.GetItemByPos p) :
    r.units inv' p=r.units inv p := by
  unfold units
  rw [h]

/-- A bag contains something else where the search does not find it there. -/
theorem mixed_iff {b : ℕ} :
    r.mixed inv b=true ↔
      ∃ j, (inv.GetItemByPos (.inBag b j)).isSome ∧ r.finds inv (.inBag b j)=false := by
  unfold mixed finds
  rw [List.any_eq_true]
  constructor
  · rintro ⟨o,ho,hother⟩
    cases o with
    | none => cases hother
    | some item =>
    have hitem : (!counts r.itemEntry item)=true := hother
    obtain ⟨j,hj,heq⟩ := List.getElem_of_mem ho
    have hget : inv.GetItemByPos (.inBag b j)=some item := by
      rw [Inventory.get_inBag,List.getElem?_eq_getElem hj,heq]
      rfl
    refine ⟨j,by rw [hget]; rfl,?_⟩
    rw [hget]
    exact (Bool.not_eq_true' _).mp hitem
  · rintro ⟨j,hsome,hfinds⟩
    obtain ⟨item,hitem⟩ := Option.isSome_iff_exists.mp hsome
    rw [hitem] at hfinds
    rw [Inventory.get_inBag] at hitem
    cases hget : (inv.bag b)[j]? with
    | none =>
      rw [hget] at hitem
      cases hitem
    | some o =>
      rw [hget] at hitem
      refine ⟨o,List.mem_of_getElem? hget,?_⟩
      change o=some item at hitem
      rw [hitem]
      exact (Bool.not_eq_true' _).mpr hfinds

/-- The order of a walk: no place twice, and those of a bag before the bag. -/
structure Ordered (inv : Inventory) (L : List Pos) : Prop where
  /-- No place is met twice. -/
  nodup : L.Nodup
  bags : L.Pairwise fun p q => ∀ b j, p=.slot b → q≠.inBag b j
  all : ∀ b j, .slot b∈L → (inv.GetItemByPos (.inBag b j)).isSome → .inBag b j∈L

/-- What was taken on the way is gone, and all else is as it was. -/
def Walked (r : Request) (inv : Inventory) (before : List Pos) (now : Inventory) : Prop :=
  ∀ q, now.GetItemByPos q=
    if q∈before ∧ r.taken inv q=true then none else inv.GetItemByPos q

section Steps

variable {L before ps : List Pos} {now : Inventory}

theorem Walked.start : Walked r inv [] inv := fun _ =>
  (if_neg fun h => absurd h.1 List.not_mem_nil).symm

/-- The rest of the places is untouched. -/
theorem Walked.get_of_not_mem (h : Walked r inv before now) (hq : q∉before) :
    now.GetItemByPos q=inv.GetItemByPos q :=
  (h q).trans (if_neg fun hq' => hq hq'.1)

theorem Ordered.not_mem (hL : Ordered inv L) (heq : before++p::ps=L) : p∉before := fun hp =>
  (List.nodup_append.mp (heq ▸ hL.nodup)).2.2 p hp p (List.mem_cons_self ..) rfl

theorem Ordered.mem_before {b j : ℕ} (hL : Ordered inv L) (heq : before++.slot b::ps=L)
    (hsome : (inv.GetItemByPos (.inBag b j)).isSome) : Pos.inBag b j∈before := by
  have hmem : Pos.slot b∈L := heq ▸ List.mem_append_right _ (List.mem_cons_self ..)
  have hbag := hL.all b j hmem hsome
  rw [← heq] at hbag
  rcases List.mem_append.mp hbag with hbefore | hafter
  · exact hbefore
  · rcases List.mem_cons.mp hafter with hself | hrest
    · cases hself
    · have hpair := (List.pairwise_append.mp (heq ▸ hL.bags)).2.1
      exact absurd rfl ((List.pairwise_cons.mp hpair).1 _ hrest b j rfl)

/-- What comes later was not met. -/
theorem Ordered.not_mem_rest (hL : Ordered inv L) (heq : before++ps=L) (hq : q∈ps) :
    q∉before := fun hbefore =>
  (List.nodup_append.mp (heq ▸ hL.nodup)).2.2 q hbefore q hq rfl

/-- A place is passed where nothing is taken. -/
theorem Walked.skip (h : Walked r inv before now) (hp : r.taken inv p=false) :
    Walked r inv (before++[p]) now := by
  intro q
  rw [h q]
  by_cases hq : q∈before ∧ r.taken inv q=true
  · rw [if_pos hq,if_pos ⟨List.mem_append_left _ hq.1,hq.2⟩]
  rw [if_neg hq,if_neg fun h' => ?_]
  rcases List.mem_append.mp h'.1 with hmem | hmem
  · exact hq ⟨hmem,h'.2⟩
  · rw [List.mem_singleton.mp hmem,hp] at h'
    cases h'.2

theorem Walked.destroy (hL : Ordered inv L) (heq : before++p::ps=L)
    (h : Walked r inv before now) (hp : r.taken inv p=true) (hspoils : r.spoils inv p=false) :
    Walked r inv (before++[p]) (now.DestroyItem p) := by
  intro q
  by_cases hqp : q=p
  · rw [hqp,if_pos ⟨List.mem_append_right _ (List.mem_singleton_self p),hp⟩]
    exact Inventory.get_DestroyItem_self
  have hmem : q∈before++[p] ↔ q∈before := by
    rw [List.mem_append,List.mem_singleton]
    exact or_iff_left hqp
  simp only [hmem]
  rw [← h q]
  by_cases hbag : ∀ b j, p=.slot b → q≠.inBag b j
  · exact Inventory.get_DestroyItem_of_ne hqp hbag
  push Not at hbag
  obtain ⟨b,j,rfl,rfl⟩ := hbag
  rw [Inventory.get_DestroyItem_bag]
  refine ((h _).trans ?_).symm
  -- what the bag contains was found, and taken before
  cases hget : inv.GetItemByPos (.inBag b j) with
  | none => exact ite_self _
  | some item =>
    have hsome : (inv.GetItemByPos (.inBag b j)).isSome := by rw [hget]; rfl
    refine if_pos ⟨hL.mem_before heq hsome,?_⟩
    cases hfinds : r.finds inv (.inBag b j) with
    | true =>
      unfold taken
      rw [hfinds]
      rfl
    | false =>
      have hmixed : r.mixed inv b=true := mixed_iff.mpr ⟨j,hsome,hfinds⟩
      change r.mixed inv b=false at hspoils
      rw [hmixed] at hspoils
      cases hspoils

/-- Nothing but one place changed. -/
theorem Walked.get_of_ne {now' : Inventory} (h' : Walked r inv (before++[p]) now')
    (h : Walked r inv before now) (hne : q≠p) :
    now'.GetItemByPos q=now.GetItemByPos q := by
  rw [h q,h' q]
  have hmem : q∈before++[p] ↔ q∈before := by
    rw [List.mem_append,List.mem_singleton]
    exact or_iff_left hne
  simp only [hmem]

/-- The check at a place is about the inventory of the start. -/
theorem Walked.canUnequip (hL : Ordered inv L) (heq : before++p::ps=L)
    (h : Walked r inv before now) :
    (!r.unequip_check || now.CanUnequipItem r.blocked p)=!r.exempt inv p := by
  cases p with
  | inBag b j => exact Bool.or_true _
  | slot i =>
    have hbag : now.IsNotEmptyBag i=r.mixed inv i := by
      refine Bool.eq_iff_iff.mpr (Inventory.IsNotEmptyBag_iff.trans (Iff.trans ?_ mixed_iff.symm))
      refine exists_congr fun j => ?_
      rw [h (.inBag i j)]
      cases hget : inv.GetItemByPos (.inBag i j) with
      | none => simp only [ite_self,Option.isSome_none,Bool.false_eq_true,false_and]
      | some item =>
        have hsome : (inv.GetItemByPos (.inBag i j)).isSome := by rw [hget]; rfl
        have htaken : r.taken inv (.inBag i j)=r.finds inv (.inBag i j) := by
          unfold taken
          exact Bool.and_true _
        rw [htaken]
        cases hfinds : r.finds inv (.inBag i j) with
        | true =>
          rw [if_pos ⟨hL.mem_before heq hsome,rfl⟩]
          simp only [Option.isSome_none,Bool.false_eq_true,Bool.true_eq_false,and_false]
        | false =>
          rw [if_neg fun h' => by cases h'.2]
          simp only [Option.isSome_some,and_self]
    unfold Inventory.CanUnequipItem exempt
    dsimp only
    rw [hbag]
    cases r.unequip_check <;> rfl

/-- What is left of a stack that is more than what is still wanted, in 32 bits. -/
theorem rest_eq {c n remcount : ℕ} (hn : n < 2^32) (hmore : n < c+remcount)
    (hsum : c+remcount < 2^32) : (c+(2^32-n)+remcount)%2^32=c+remcount-n := by
  have hsplit : c+(2^32-n)+remcount=(c+remcount-n)+2^32 := by omega
  rw [hsplit,Nat.add_mod_right,Nat.mod_eq_of_lt (by omega)]

/-- What a walk does with the rest of the places. -/
structure Outcome (r : Request) (inv : Inventory) (ps : List Pos) (remcount : ℕ)
    (now final : Inventory) : Prop where
  others : ∀ q, ¬(q∈ps ∧ r.taken inv q=true) → final.GetItemByPos q=now.GetItemByPos q
  /-- What is taken is gone, or reduced to a count that is not zero. -/
  kept : ∀ q, final.GetItemByPos q=now.GetItemByPos q ∨ final.GetItemByPos q=none ∨
    ∃ item c, now.GetItemByPos q=some item ∧ 0 < c ∧ c < item.count ∧
      final.GetItemByPos q=some { item with count := c }
  /-- As many units are taken as are wanted and found. -/
  total : (ps.map (r.units inv)).sum+remcount=
    (ps.map (r.units final)).sum+min r.count (remcount+(ps.map (r.found inv)).sum)

/-- The sum over places that are not touched. -/
theorem sum_units_congr {inv' : Inventory}
    (h : ∀ q∈ps, inv'.GetItemByPos q=inv.GetItemByPos q) :
    (ps.map (r.units inv')).sum=(ps.map (r.units inv)).sum :=
  congrArg List.sum (List.map_congr_left fun q hq => units_congr (h q hq))

/-- A place is passed. -/
theorem Outcome.skip {final : Inventory} {remcount : ℕ}
    (hp : r.taken inv p=false) (hget : now.GetItemByPos p=inv.GetItemByPos p)
    (hnot : p∉ps) (h : Outcome r inv ps remcount now final) :
    Outcome r inv (p::ps) remcount now final := by
  have hsame : final.GetItemByPos p=now.GetItemByPos p :=
    h.others p fun hq => hnot hq.1
  refine ⟨fun q hq => h.others q fun h' => hq ⟨List.mem_cons_of_mem _ h'.1,h'.2⟩,h.kept,?_⟩
  have htotal := h.total
  have hunits : r.units final p=r.units inv p := units_congr (hsame.trans hget)
  have hfound : r.found inv p=0 := by
    unfold found
    rw [hp]
    rfl
  simp only [List.map_cons,List.sum_cons,hunits,hfound]
  rw [Nat.zero_add]
  omega

theorem taken_eq_false (h : r.finds inv p=false ∨ r.exempt inv p=true) :
    r.taken inv p=false := by
  unfold taken
  rcases h with h | h
  · rw [h]
    rfl
  · rw [h,Bool.not_true,Bool.and_false]

/-- Enough was taken. -/
theorem Outcome.stop (hsame : ∀ q∈ps, now.GetItemByPos q=inv.GetItemByPos q) :
    Outcome r inv ps r.count now now := by
  refine ⟨fun _ _ => rfl,fun _ => Or.inl rfl,?_⟩
  rw [sum_units_congr hsame,Nat.min_eq_left (Nat.le_add_right ..)]

/-- What is in a place is taken, and the walk goes on or stops. -/
theorem Outcome.destroy {final : Inventory} {remcount : ℕ} (hp : r.taken inv p=true)
    (hnot : p∉ps)
    (hother : ∀ q, q≠p → (now.DestroyItem p).GetItemByPos q=now.GetItemByPos q)
    (h : Outcome r inv ps (r.units inv p+remcount) (now.DestroyItem p) final) :
    Outcome r inv (p::ps) remcount now final := by
  have hgone : final.GetItemByPos p=none :=
    (h.others p fun hq => hnot hq.1).trans Inventory.get_DestroyItem_self
  refine ⟨fun q hq => ?_,fun q => ?_,?_⟩
  · have hne : q≠p := fun heq => hq ⟨heq ▸ List.mem_cons_self ..,heq ▸ hp⟩
    rw [← hother q hne]
    exact h.others q fun h' => hq ⟨List.mem_cons_of_mem _ h'.1,h'.2⟩
  · by_cases hne : q=p
    · exact Or.inr (Or.inl (hne ▸ hgone))
    · rw [← hother q hne]
      exact h.kept q
  · have htotal := h.total
    have hfound : r.found inv p=r.units inv p := if_pos hp
    simp only [List.map_cons,List.sum_cons,units_none hgone,hfound]
    rw [Nat.zero_add,← Nat.add_assoc remcount,Nat.add_comm remcount]
    omega

/-- What is in a place is more than what is still wanted. -/
theorem Outcome.reduce {remcount : ℕ} {item : Item} (hitem : now.GetItemByPos p=some item)
    (hp : r.taken inv p=true) (hunits : r.units inv p=item.count)
    (hcounts : counts r.itemEntry item=true) (hnot : p∉ps) (hrem : remcount < r.count)
    (hmore : r.count < item.count+remcount)
    (hsame : ∀ q∈ps, now.GetItemByPos q=inv.GetItemByPos q) :
    Outcome r inv (p::ps) remcount now (now.SetCount (item.count+remcount-r.count) p) := by
  have hset : (now.SetCount (item.count+remcount-r.count) p).GetItemByPos p=
      some { item with count := item.count+remcount-r.count } := by
    rw [Inventory.get_SetCount_self,hitem]
    rfl
  refine ⟨fun q hq => ?_,fun q => ?_,?_⟩
  · have hne : q≠p := fun heq => hq ⟨heq ▸ List.mem_cons_self ..,heq ▸ hp⟩
    exact Inventory.get_SetCount_of_ne _ hne
  · by_cases hne : q=p
    · rw [hne]
      exact Or.inr (Or.inr ⟨item,_,hitem,by omega,by omega,hset⟩)
    · exact Or.inl (Inventory.get_SetCount_of_ne _ hne)
  · have hfinal : r.units (now.SetCount (item.count+remcount-r.count) p) p=
        item.count+remcount-r.count := by
      refine units_eq hset ?_
      rw [finds_eq hset]
      exact hcounts
    have hrest : (ps.map (r.units (now.SetCount (item.count+remcount-r.count) p))).sum=
        (ps.map (r.units inv)).sum := sum_units_congr fun q hq => by
      have hne : q≠p := fun heq => hnot (heq ▸ hq)
      rw [Inventory.get_SetCount_of_ne _ hne,hsame q hq]
    have hfound : r.found inv p=item.count := (if_pos hp).trans hunits
    simp only [List.map_cons,List.sum_cons,hfinal,hrest,hfound,hunits]
    omega

theorem Walked.outcome (hL : Ordered inv L) (hcount : r.count < 2^32) :
    ∀ {ps before : List Pos} {now : Inventory} {remcount : ℕ}, before++ps=L →
      Walked r inv before now → remcount < r.count →
      remcount+(ps.map (r.units inv)).sum < 2^32 → r.fits inv ps remcount=true →
      Outcome r inv ps remcount now (Inventory.destroyLoop r.blocked r.itemEntry r.count
        r.unequip_check ps remcount now)
  | [],before,now,remcount,_,h,hrem,_,_ => by
    refine ⟨fun _ _ => rfl,fun _ => Or.inl rfl,?_⟩
    simp only [List.map_nil,List.sum_nil]
    omega
  | p::ps,before,now,remcount,heq,h,hrem,hsum,hfits => by
    have hnext : (before++[p])++ps=L := by rw [List.append_assoc]; exact heq
    have hp := hL.not_mem heq
    have hget := h.get_of_not_mem hp
    have hnot : p∉ps := fun hmem =>
      (List.nodup_cons.mp (List.nodup_append.mp (heq ▸ hL.nodup)).2.1).1 hmem
    rw [List.map_cons,List.sum_cons] at hsum
    unfold Inventory.destroyLoop
    rw [hget]
    unfold fits at hfits
    cases hitem : inv.GetItemByPos p with
    | none =>
      have hfinds : r.finds inv p=false := finds_none hitem
      rw [hfinds,if_neg Bool.false_ne_true] at hfits
      have htaken := taken_eq_false (Or.inl hfinds)
      exact (Walked.outcome hL hcount hnext (h.skip htaken) hrem (by omega) hfits).skip
        htaken hget hnot
    | some item =>
      dsimp only
      rw [← finds_eq hitem]
      cases hfinds : r.finds inv p with
      | false =>
        rw [hfinds,if_neg Bool.false_ne_true] at hfits
        have htaken := taken_eq_false (Or.inl hfinds)
        exact (Walked.outcome hL hcount hnext (h.skip htaken) hrem (by omega) hfits).skip
          htaken hget hnot
      | true =>
        have hunits := units_eq hitem hfinds
        rw [hfinds,if_pos rfl,hunits] at hfits
        rw [hunits] at hsum
        rw [if_pos rfl,h.canUnequip hL heq,Nat.mod_eq_of_lt (by omega : item.count+remcount < 2^32),
          Nat.mod_eq_of_lt (by omega : remcount+item.count < 2^32)]
        by_cases hle : item.count+remcount ≤ r.count
        · rw [if_pos hle] at hfits ⊢
          cases hexempt : r.exempt inv p with
          | true =>
            rw [hexempt,if_pos rfl] at hfits
            have htaken := taken_eq_false (Or.inr hexempt)
            exact (Walked.outcome hL hcount hnext (h.skip htaken) hrem (by omega) hfits).skip
              htaken hget hnot
          | false =>
            rw [hexempt,if_neg Bool.false_ne_true,Bool.and_eq_true,Bool.or_eq_true,
              decide_eq_true_eq] at hfits
            have hspoils := (Bool.not_eq_true' _).mp hfits.1
            have htaken : r.taken inv p=true := by
              unfold taken
              rw [hfinds,hexempt]
              rfl
            have hwalked := h.destroy hL heq htaken hspoils
            have hother : ∀ q, q≠p → (now.DestroyItem p).GetItemByPos q=now.GetItemByPos q :=
              fun q hne => hwalked.get_of_ne h hne
            rw [Bool.not_false,if_pos rfl,Nat.add_comm remcount]
            refine Outcome.destroy htaken hnot hother ?_
            rw [hunits]
            by_cases hend : r.count ≤ item.count+remcount
            · rw [if_pos hend,Nat.le_antisymm hle hend]
              exact Outcome.stop fun q hq => hwalked.get_of_not_mem (hL.not_mem_rest hnext hq)
            · rw [if_neg hend]
              exact Walked.outcome hL hcount hnext hwalked (by omega) (by omega)
                (hfits.2.resolve_left hend)
        · rw [if_neg hle] at hfits ⊢
          have htaken : r.taken inv p=true := by
            unfold taken
            rw [hfinds,hfits]
            rfl
          rw [rest_eq hcount (Nat.lt_of_not_le hle) (by omega)]
          exact Outcome.reduce (hget.trans hitem) htaken hunits (finds_eq hitem ▸ hfinds) hnot
            hrem (Nat.lt_of_not_le hle) fun q hq => h.get_of_not_mem
              (hL.not_mem_rest heq (List.mem_cons_of_mem _ hq))

/-- What is gone does not come back. -/
theorem destroyLoop_none {ps : List Pos} : ∀ {now : Inventory} {remcount : ℕ},
    now.GetItemByPos q=none →
    (Inventory.destroyLoop r.blocked r.itemEntry r.count r.unequip_check ps remcount
      now).GetItemByPos q=none := by
  induction ps with
  | nil => exact fun h => h
  | cons p ps ih =>
    intro now remcount h
    unfold Inventory.destroyLoop
    split
    · exact ih h
    dsimp only
    split_ifs
    · exact Inventory.get_DestroyItem_none h
    · exact ih (Inventory.get_DestroyItem_none h)
    · exact ih h
    · exact Inventory.get_SetCount_none _ h
    · exact ih h

theorem Walked.violates (hL : Ordered inv L) (hcount : r.count < 2^32) :
    ∀ {ps before : List Pos} {now : Inventory} {remcount : ℕ}, before++ps=L →
      Walked r inv before now → remcount < r.count →
      remcount+(ps.map (r.units inv)).sum < 2^32 → r.fits inv ps remcount=false →
      ∃ q, r.taken inv q=false ∧ (Inventory.destroyLoop r.blocked r.itemEntry r.count
        r.unequip_check ps remcount now).GetItemByPos q≠inv.GetItemByPos q
  | [],_,_,_,_,_,_,_,hfits => by cases hfits
  | p::ps,before,now,remcount,heq,h,hrem,hsum,hfits => by
    have hnext : (before++[p])++ps=L := by rw [List.append_assoc]; exact heq
    have hget := h.get_of_not_mem (hL.not_mem heq)
    rw [List.map_cons,List.sum_cons] at hsum
    unfold Inventory.destroyLoop
    rw [hget]
    unfold fits at hfits
    cases hitem : inv.GetItemByPos p with
    | none =>
      have hfinds : r.finds inv p=false := finds_none hitem
      rw [hfinds,if_neg Bool.false_ne_true] at hfits
      exact Walked.violates hL hcount hnext (h.skip (taken_eq_false (Or.inl hfinds))) hrem
        (by omega) hfits
    | some item =>
      dsimp only
      rw [← finds_eq hitem]
      cases hfinds : r.finds inv p with
      | false =>
        rw [hfinds,if_neg Bool.false_ne_true] at hfits
        exact Walked.violates hL hcount hnext (h.skip (taken_eq_false (Or.inl hfinds))) hrem
          (by omega) hfits
      | true =>
        have hunits := units_eq hitem hfinds
        rw [hfinds,if_pos rfl,hunits] at hfits
        rw [hunits] at hsum
        rw [if_pos rfl,h.canUnequip hL heq,Nat.mod_eq_of_lt (by omega : item.count+remcount < 2^32),
          Nat.mod_eq_of_lt (by omega : remcount+item.count < 2^32)]
        by_cases hle : item.count+remcount ≤ r.count
        · rw [if_pos hle] at hfits ⊢
          cases hexempt : r.exempt inv p with
          | true =>
            rw [hexempt,if_pos rfl] at hfits
            exact Walked.violates hL hcount hnext (h.skip (taken_eq_false (Or.inr hexempt))) hrem
              (by omega) hfits
          | false =>
            rw [hexempt,if_neg Bool.false_ne_true,Bool.and_eq_false_iff,Bool.or_eq_false_iff,
              decide_eq_false_iff_not] at hfits
            rw [Bool.not_false,if_pos rfl,Nat.add_comm remcount]
            have htaken : r.taken inv p=true := by
              unfold taken
              rw [hfinds,hexempt]
              rfl
            cases hspoils : r.spoils inv p with
            | false =>
              rw [hspoils] at hfits
              have hmore := hfits.resolve_left Bool.true_eq_false.mp
              rw [if_neg hmore.1]
              exact Walked.violates hL hcount hnext (h.destroy hL heq htaken hspoils) (by omega)
                (by omega) hmore.2
            | true =>
              cases p with
              | inBag b j => cases hspoils
              | slot i =>
                obtain ⟨j,hsome,hother⟩ := mixed_iff.mp hspoils
                refine ⟨.inBag i j,taken_eq_false (Or.inl hother),fun hsame => ?_⟩
                rw [← hsame] at hsome
                have hnone : (now.DestroyItem (.slot i)).GetItemByPos (.inBag i j)=none :=
                  Inventory.get_DestroyItem_bag
                split_ifs at hsome
                · rw [hnone] at hsome
                  cases hsome
                · rw [destroyLoop_none hnone] at hsome
                  cases hsome
        · rw [if_neg hle] at hfits ⊢
          have hexempt : r.exempt inv p=true := (Bool.not_eq_false' _).mp hfits
          refine ⟨p,taken_eq_false (Or.inr hexempt),fun hsame => ?_⟩
          rw [rest_eq hcount (Nat.lt_of_not_le hle) (by omega),Inventory.get_SetCount_self,hget,hitem] at hsame
          have hcounts := congrArg Item.count (Option.some.inj hsame)
          dsimp only at hcounts
          omega

end Steps

end Request

end Projectnelth.ItemCountModel
