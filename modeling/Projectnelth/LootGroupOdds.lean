import Mathlib
import Projectnelth.LootGroupModel
import Projectnelth.RouletteWheel

/-!
# The odds of a loot group

A roll is a turn of a wheel on which an entry has its chance as often as there are looters that can
use it. So the odds are those of the chances only if one looter can use each entry, or if equally
many can and the chances fill the range by themselves.
-/

namespace Projectnelth.LootGroupModel

open RouletteWheel

variable {group : LootGroup} {s : Setting} {dice : Dice} {item other : LootStoreItem}
variable {items : List LootStoreItem} {weighted_calc : ℕ → ℚ} {w : Weights} {roll : ℚ}

/-! ## Groups as they are loaded -/

/-- A group that was built by `AddEntry` of entries allocated apart. -/
structure LootGroup.WellFormed (group : LootGroup) : Prop where
  /-- The entries of the first list have a chance. -/
  chanced : ∀ item∈group.ExplicitlyChanced,item.chance≠0
  /-- Those of the second list have none. -/
  equal : ∀ item∈group.EqualChanced,item.chance=0
  /-- Each entry is kept in a place of its own. -/
  apart : (group.ExplicitlyChanced.map LootStoreItem.address).Nodup

theorem wellFormed_empty : LootGroup.empty.WellFormed where
  chanced := by simp [LootGroup.empty]
  equal := by simp [LootGroup.empty]
  apart := List.nodup_nil

theorem LootGroup.WellFormed.addEntry (h : group.WellFormed)
    (hfresh : item.address∉group.ExplicitlyChanced.map LootStoreItem.address) :
    (group.addEntry item).WellFormed := by
  unfold LootGroup.addEntry
  split
  · rename_i hchance
    refine ⟨?_,h.equal,?_⟩
    · simp only [List.mem_append,List.mem_singleton]
      rintro entry (hentry | rfl)
      · exact h.chanced entry hentry
      · exact hchance
    · rw [List.map_append,List.nodup_append]
      refine ⟨h.apart,List.nodup_singleton _,?_⟩
      rintro a ha b hb rfl
      obtain rfl := List.mem_singleton.mp hb
      exact hfresh ha
  · rename_i hchance
    refine ⟨h.chanced,?_,h.apart⟩
    simp only [List.mem_append,List.mem_singleton]
    rintro entry (hentry | rfl)
    · exact h.equal entry hentry
    · exact not_not.mp hchance

/-! ## The candidates -/

/-- How many looters can use an entry. -/
def Setting.users (s : Setting) (item : LootStoreItem) : ℕ :=
  s.loot.PlayersLooting.countP (s.canUse item)

/-- The entries with a chance that pass the selector and that some looter can use. -/
def LootGroup.candidates (group : LootGroup) (s : Setting) : List LootStoreItem :=
  (s.possibleLoot group.ExplicitlyChanced).filter fun item => s.loot.PlayersLooting.any (s.canUse item)

/-- The sum of their chances. -/
def LootGroup.chanceSum (group : LootGroup) (s : Setting) : ℚ :=
  total (fun item => |item.chance|) (group.candidates s)

/-- How much of the wheel an entry takes up. -/
def Setting.width (s : Setting) (item : LootStoreItem) : ℚ := s.users item*|item.chance|

theorem insertions_eq (s : Setting) (item : LootStoreItem) :
    s.insertions item=List.replicate (s.users item) item := by
  unfold Setting.insertions Setting.users
  induction s.loot.PlayersLooting with
  | nil => rfl
  | cons guid guids ih =>
    simp only [List.filterMap_cons,List.countP_cons]
    cases s.canUse item guid
    · simpa using ih
    · simpa [List.replicate_succ] using ih

theorem any_canUse_iff : s.loot.PlayersLooting.any (s.canUse item)=true ↔ 0 < s.users item := by
  rw [List.any_eq_true,Setting.users,List.countP_pos_iff]

theorem mem_candidates : item∈group.candidates s ↔
    item∈s.possibleLoot group.ExplicitlyChanced ∧ 0 < s.users item := by
  unfold LootGroup.candidates
  rw [List.mem_filter,any_canUse_iff]

theorem LootGroup.WellFormed.chance_ne_zero (h : group.WellFormed)
    (hitem : item∈s.possibleLoot group.ExplicitlyChanced) : item.chance≠0 :=
  h.chanced item (List.mem_of_mem_filter hitem)

theorem LootGroup.WellFormed.apart_possibleLoot (h : group.WellFormed) (s : Setting) :
    ((s.possibleLoot group.ExplicitlyChanced).map LootStoreItem.address).Nodup :=
  h.apart.sublist (List.filter_sublist.map _)

/-! ## The wheel -/

/-- The weights of an entry's copies. -/
theorem foldl_replicate (hchance : item.chance≠0) (n : ℕ) (w : Weights) :
    (List.replicate (n+1) item).foldl Weights.pushChanced w=
      w.push item ((n+1 : ℕ)*|item.chance|) := by
  induction n generalizing w with
  | zero => simp [Weights.pushChanced,hchance]
  | succ n ih =>
    rw [List.replicate_succ,List.foldl_cons,ih]
    unfold Weights.pushChanced
    rw [if_pos hchance]
    unfold Weights.push
    congr 1
    · push_cast
      ring
    rw [Function.update_idem]
    congr 1
    push_cast
    ring

/-- The weights after an entry's turn. -/
theorem foldl_insertions (hchance : item.chance≠0) (w : Weights) :
    (s.insertions item).foldl Weights.pushChanced w=
      if 0 < s.users item then w.push item (s.width item) else w := by
  rw [insertions_eq]
  unfold Setting.width
  cases s.users item with
  | zero => rfl
  | succ n => rw [foldl_replicate hchance,if_pos (Nat.succ_pos n)]

theorem weighted_calc_foldl (hchance : ∀ item∈items,item.chance≠0)
    (hother : other.address∉items.map LootStoreItem.address) :
    ((items.flatMap s.insertions).foldl Weights.pushChanced w).weighted_calc other.address=
      w.weighted_calc other.address := by
  induction items generalizing w with
  | nil => rfl
  | cons item items ih =>
    simp only [List.map_cons,List.mem_cons,not_or] at hother
    rw [List.flatMap_cons,List.foldl_append,foldl_insertions (hchance item List.mem_cons_self),
      ih (fun entry h => hchance entry (List.mem_cons_of_mem item h)) hother.2]
    split
    · exact Function.update_of_ne hother.1 ..
    · rfl

/-- The upper end of the weights is the length of the wheel. -/
theorem roll_cap_foldl (hchance : ∀ item∈items,item.chance≠0) :
    ((items.flatMap s.insertions).foldl Weights.pushChanced w).roll_cap=
      w.roll_cap+total s.width items := by
  induction items generalizing w with
  | nil => simp
  | cons item items ih =>
    rw [List.flatMap_cons,List.foldl_append,foldl_insertions (hchance item List.mem_cons_self),
      ih fun entry h => hchance entry (List.mem_cons_of_mem item h),total_cons]
    split
    · exact add_assoc ..
    have hnone : s.width item=0 := by
      unfold Setting.width
      rw [show s.users item=0 by omega]
      simp
    rw [hnone,zero_add]

/-- The first copy that the roll does not exceed is of the entry where the wheel stops. -/
theorem find_eq_spin (s : Setting) (w : Weights) (roll : ℚ) (hchance : ∀ item∈items,item.chance≠0)
    (hapart : (items.map LootStoreItem.address).Nodup) :
    ((items.flatMap s.insertions).find? fun item => roll ≤
        ((items.flatMap s.insertions).foldl Weights.pushChanced w).weighted_calc item.address)=
      spin s.width roll w.roll_cap (items.filter fun item => 0 < s.users item) := by
  induction items generalizing w with
  | nil => rfl
  | cons item items ih =>
    rw [List.map_cons,List.nodup_cons] at hapart
    have hrest : ∀ item∈items,item.chance≠0 :=
      fun entry h => hchance entry (List.mem_cons_of_mem item h)
    rw [List.flatMap_cons,List.foldl_append,foldl_insertions (hchance item List.mem_cons_self),
      List.find?_append,ih _ hrest hapart.2,List.filter_cons]
    -- the copies of this entry all read the weight that its last copy got
    have hweight := weighted_calc_foldl (s := s) (w := w.push item (s.width item)) hrest hapart.1
    rw [insertions_eq]
    cases husers : s.users item with
    | zero => rfl
    | succ n =>
      rw [if_pos (Nat.succ_pos n),if_pos (decide_eq_true (Nat.succ_pos n)),List.find?_replicate,
        hweight]
      simp only [spin,Weights.push,Function.update_self]
      by_cases hle : roll ≤ w.roll_cap+s.width item
      · simp [hle]
      · simp [hle]

/-- No entry of the first list is without a chance, so the last loop is not entered. -/
theorem weigh_eq (hchance : ∀ item∈items,item.chance≠0) :
    weigh weighted_calc (items.flatMap s.insertions)=
      (items.flatMap s.insertions).foldl Weights.pushChanced ⟨0,weighted_calc⟩ := by
  have hnone : (items.flatMap s.insertions).countP (fun item => item.chance=0)=0 := by
    rw [List.countP_eq_zero]
    intro item hitem
    obtain ⟨entry,hentry,hcopy⟩ := List.mem_flatMap.mp hitem
    rw [insertions_eq] at hcopy
    rw [List.eq_of_mem_replicate hcopy]
    simpa using hchance entry hentry
  unfold weigh
  simp [hnone]

/-- The entries that lie on the wheel. -/
def LootGroup.wheel (group : LootGroup) (s : Setting) (dice : Dice) : List LootStoreItem :=
  (dice.shuffle (s.possibleLoot group.ExplicitlyChanced)).filter fun item => 0 < s.users item

theorem wheel_perm (group : LootGroup) (s : Setting) (dice : Dice) :
    (group.wheel s dice).Perm (group.candidates s) := by
  have hsame : group.candidates s=
      (s.possibleLoot group.ExplicitlyChanced).filter fun item => 0 < s.users item := by
    refine List.filter_congr fun item _ => ?_
    rw [Bool.eq_iff_iff,any_canUse_iff,decide_eq_true_eq]
  rw [hsame]
  exact (dice.perm _).filter _

theorem total_width_filter (s : Setting) (items : List LootStoreItem) :
    total s.width (items.filter fun item => 0 < s.users item)=total s.width items := by
  induction items with
  | nil => rfl
  | cons item items ih =>
    rw [List.filter_cons,total_cons,← ih]
    split
    · exact total_cons
    rename_i husers
    have hnone : s.users item=0 := by simpa using husers
    unfold Setting.width
    rw [hnone,Nat.cast_zero,zero_mul,zero_add]

theorem LootGroup.WellFormed.shuffled_chanced (h : group.WellFormed) (s : Setting) (dice : Dice) :
    ∀ item∈dice.shuffle (s.possibleLoot group.ExplicitlyChanced),item.chance≠0 :=
  fun _ hitem => h.chance_ne_zero ((dice.perm _).subset hitem)

/-- The range of the roll goes to the end of the wheel, but to a hundred at least. -/
theorem LootGroup.WellFormed.rollMax_eq (h : group.WellFormed) (s : Setting) (dice : Dice)
    (weighted_calc : ℕ → ℚ) :
    group.rollMax s dice weighted_calc=max (total s.width (group.candidates s)) 100 := by
  unfold LootGroup.rollMax LootGroup.shuffled
  rw [weigh_eq (h.shuffled_chanced s dice),roll_cap_foldl (h.shuffled_chanced s dice),zero_add,
    ← total_width_filter,← total_perm (wheel_perm group s dice)]
  rfl

/-- What is taken where the wheel stops at no entry. -/
def LootGroup.fallback (group : LootGroup) (s : Setting) (dice : Dice) : Option LootStoreItem :=
  dice.selectRandomContainerElement (s.possibleLoot group.EqualChanced)

/-- A roll gives the entry where the wheel stops, or an entry without a chance. -/
theorem LootGroup.WellFormed.roll_eq (h : group.WellFormed) :
    (group.roll s dice weighted_calc roll).1=
      (spin s.width roll 0 (group.wheel s dice)).or (group.fallback s dice) := by
  have hapart : ((dice.shuffle (s.possibleLoot group.ExplicitlyChanced)).map
      LootStoreItem.address).Nodup :=
    ((dice.perm _).map LootStoreItem.address).nodup_iff.mpr (h.apart_possibleLoot s)
  have hfind := find_eq_spin s ⟨0,weighted_calc⟩ roll
    (h.shuffled_chanced s dice) hapart
  rw [← weigh_eq (h.shuffled_chanced s dice)] at hfind
  unfold LootGroup.wheel LootGroup.fallback
  rw [← hfind]
  unfold LootGroup.roll
  split
  · rename_i hempty
    have hnil : dice.shuffle (s.possibleLoot group.ExplicitlyChanced)=[] := by
      have hlength := (dice.perm (s.possibleLoot group.ExplicitlyChanced)).length_eq
      rw [List.isEmpty_iff.mp hempty] at hlength ⊢
      exact List.length_eq_zero_iff.mp hlength
    rw [hnil]
    rfl
  · unfold LootGroup.shuffled
    dsimp only
    split
    · rename_i item hitem
      rw [hitem]
      rfl
    · rename_i hnone
      rw [hnone]
      rfl

/-- The fallback is an entry without a chance that passes the selector, if there is one. -/
theorem fallback_spec (group : LootGroup) (s : Setting) (dice : Dice) :
    if s.possibleLoot group.EqualChanced=[] then group.fallback s dice=none
    else ∃ item∈s.possibleLoot group.EqualChanced,group.fallback s dice=some item := by
  unfold LootGroup.fallback Dice.selectRandomContainerElement
  split
  · rename_i hnil
    rw [hnil]
    rfl
  · rename_i hne
    have hlength := List.length_pos_iff.mpr hne
    have hlt := dice.urand_le ((s.possibleLoot group.EqualChanced).length-1)
    refine ⟨_,List.getElem_mem (by omega),List.getElem?_eq_getElem (by omega)⟩

theorem LootGroup.WellFormed.fallback_chance (h : group.WellFormed)
    (hitem : group.fallback s dice=some item) : item.chance=0 := by
  have hspec := fallback_spec group s dice
  split at hspec
  · rw [hspec] at hitem
    cases hitem
  obtain ⟨entry,hentry,heq⟩ := hspec
  rw [heq] at hitem
  cases hitem
  exact h.equal _ (List.mem_of_mem_filter hentry)

/-- An entry with a chance is returned exactly where the wheel stops at it. -/
theorem LootGroup.WellFormed.roll_eq_some_iff (h : group.WellFormed) (hchance : item.chance≠0) :
    (group.roll s dice weighted_calc roll).1=some item ↔
      spin s.width roll 0 (group.wheel s dice)=some item := by
  rw [h.roll_eq]
  cases hspin : spin s.width roll 0 (group.wheel s dice) with
  | some entry => rfl
  | none =>
    simp only [Option.none_or,reduceCtorEq,iff_false]
    exact fun hfallback => hchance (h.fallback_chance hfallback)

/-! ## The law -/

/-- The odds of a group are those of its chances. -/
structure FairOdds (group : LootGroup) (s : Setting) (dice : Dice) (weighted_calc : ℕ → ℚ) :
    Prop where
  share : ∀ item∈group.candidates s,HasShare
    {roll | 0 ≤ roll ∧ roll ≤ group.rollMax s dice weighted_calc ∧
      (group.roll s dice weighted_calc roll).1=some item}
    (group.rollMax s dice weighted_calc) (|item.chance|/max (group.chanceSum s) 100)
  /-- No other entry with a chance is returned. -/
  candidate : ∀ roll item,(group.roll s dice weighted_calc roll).1=some item →
    item∈group.ExplicitlyChanced → item∈group.candidates s
  /-- For the other rolls it is an entry without a chance that passes the selector. -/
  rest : ∀ roll,(∀ item∈group.candidates s,(group.roll s dice weighted_calc roll).1≠some item) →
    if s.possibleLoot group.EqualChanced=[] then (group.roll s dice weighted_calc roll).1=none
    else ∃ item∈s.possibleLoot group.EqualChanced,
      (group.roll s dice weighted_calc roll).1=some item

/-- The number of looters drops out: one looter can use each candidate, or equally many can and
the chances fill the range. -/
def SharesAgree (group : LootGroup) (s : Setting) : Prop :=
  (∀ item∈group.candidates s,s.users item=1) ∨
    100 ≤ group.chanceSum s ∧ ∃ n,∀ item∈group.candidates s,s.users item=n

theorem LootGroup.WellFormed.hasShare (h : group.WellFormed) (dice : Dice)
    (weighted_calc : ℕ → ℚ) (hitem : item∈group.candidates s) :
    HasShare
      {roll | 0 ≤ roll ∧ roll ≤ group.rollMax s dice weighted_calc ∧
        (group.roll s dice weighted_calc roll).1=some item}
      (group.rollMax s dice weighted_calc)
      (s.width item/max (total s.width (group.candidates s)) 100) := by
  have hmax := h.rollMax_eq s dice weighted_calc
  have hperm := wheel_perm group s dice
  have hnodup : (group.wheel s dice).Nodup := by
    refine hperm.nodup_iff.mpr (List.Nodup.filter _ ?_)
    exact (h.apart_possibleLoot s).of_map
  have hpos : ∀ item∈group.wheel s dice,0 < s.width item := by
    intro entry hentry
    obtain ⟨hpossible,husers⟩ := mem_candidates.mp (hperm.subset hentry)
    exact mul_pos (Nat.cast_pos.mpr husers) (abs_pos.mpr (h.chance_ne_zero hpossible))
  have hshare := hasShare_spin hpos hnodup (hperm.symm.subset hitem)
    (le_max_left (total s.width (group.wheel s dice)) 100) (lt_max_of_lt_right (by norm_num))
  rw [total_perm hperm] at hshare
  have hchance := h.chance_ne_zero (mem_candidates.mp hitem).1
  simp only [h.roll_eq_some_iff hchance,hmax]
  exact hshare

theorem total_width_of_users {n : ℕ} (husers : ∀ item∈items,s.users item=n) :
    total s.width items=n*total (fun item => |item.chance|) items := by
  induction items with
  | nil => simp
  | cons item items ih =>
    rw [total_cons,total_cons,ih fun entry h => husers entry (List.mem_cons_of_mem item h)]
    unfold Setting.width
    rw [husers item List.mem_cons_self]
    ring

/-- All candidates have the shares of their chances exactly when the number of looters drops
out. -/
theorem sharesAgree_iff (hchance : ∀ item∈group.candidates s,item.chance≠0) :
    SharesAgree group s ↔ ∀ item∈group.candidates s,
      s.width item/max (total s.width (group.candidates s)) 100=
        |item.chance|/max (group.chanceSum s) 100 := by
  have hpos : ∀ t : ℚ,0 < max t 100 := fun t => lt_max_of_lt_right (by norm_num)
  -- a share is that of the chance exactly if the number of users is the ratio of the two ranges
  have hratio : ∀ item∈group.candidates s,
      s.width item/max (total s.width (group.candidates s)) 100=
          |item.chance|/max (group.chanceSum s) 100 ↔
        s.users item*max (group.chanceSum s) 100=
          max (total s.width (group.candidates s)) 100 := by
    intro item hitem
    rw [div_eq_div_iff (hpos _).ne' (hpos _).ne']
    unfold Setting.width
    have habs := abs_pos.mpr (hchance item hitem)
    constructor
    · intro heq
      refine mul_left_cancel₀ habs.ne' ?_
      rw [← heq]
      ring
    · intro heq
      rw [← heq]
      ring
  constructor
  · rintro (hone | ⟨hfull,n,hn⟩) item hitem
    · rw [hratio item hitem,hone item hitem,total_width_of_users hone,Nat.cast_one,one_mul,one_mul]
      rfl
    have hpositive : 1 ≤ n := by
      rw [← hn item hitem]
      exact (mem_candidates.mp hitem).2
    have hn' : (1 : ℚ) ≤ n := by exact_mod_cast hpositive
    have hlong : 100 ≤ n*group.chanceSum s := by nlinarith
    rw [hratio item hitem,hn item hitem,total_width_of_users hn,max_eq_left hfull]
    exact (max_eq_left hlong).symm
  · intro hall
    by_cases hone : ∀ item∈group.candidates s,s.users item=1
    · exact Or.inl hone
    right
    push Not at hone
    obtain ⟨item,hitem,hmany⟩ := hone
    have husers : ∀ entry∈group.candidates s,s.users entry=s.users item := by
      intro entry hentry
      have heq := ((hratio entry hentry).mp (hall entry hentry)).trans
        ((hratio item hitem).mp (hall item hitem)).symm
      exact_mod_cast mul_right_cancel₀ (hpos _).ne' heq
    refine ⟨?_,s.users item,husers⟩
    have heq := (hratio item hitem).mp (hall item hitem)
    have hsum : total (fun item => |item.chance|) (group.candidates s)=group.chanceSum s := rfl
    rw [total_width_of_users husers,hsum] at heq
    -- with two users or more and a sum below a hundred the ranges would not have this ratio
    by_contra hshort
    have htwo : 2 ≤ s.users item := by
      have hsome := (mem_candidates.mp hitem).2
      omega
    have htwo' : (2 : ℚ) ≤ s.users item := by exact_mod_cast htwo
    rw [max_eq_right (not_le.mp hshort).le] at heq
    rcases max_choice (s.users item*group.chanceSum s) 100 with hmax | hmax
    · rw [hmax] at heq
      have hcancel := mul_left_cancel₀ (by linarith : (s.users item : ℚ)≠0) heq
      exact hshort hcancel.le
    · rw [hmax] at heq
      linarith

/-- In every setting, whatever the shuffle does and whatever the entries held before, the odds of
a group are those of its chances exactly when one looter can use each candidate, or equally many
looters can and the chances fill the range. -/
theorem fairOdds_iff (group : LootGroup) (h : group.WellFormed) (s : Setting) (dice : Dice)
    (weighted_calc : ℕ → ℚ) : FairOdds group s dice weighted_calc ↔ SharesAgree group s := by
  have hchance : ∀ item∈group.candidates s,item.chance≠0 :=
    fun item hitem => h.chance_ne_zero (mem_candidates.mp hitem).1
  rw [sharesAgree_iff hchance]
  have htop : 0 < group.rollMax s dice weighted_calc := by
    rw [h.rollMax_eq]
    exact lt_max_of_lt_right (by norm_num)
  constructor
  · intro hfair item hitem
    exact (h.hasShare dice weighted_calc hitem).unique htop (hfair.share item hitem)
  intro hall
  refine ⟨?_,?_,?_⟩
  · intro item hitem
    rw [← hall item hitem]
    exact h.hasShare dice weighted_calc hitem
  · intro roll item hroll hitem
    rw [h.roll_eq_some_iff (h.chanced item hitem)] at hroll
    exact (wheel_perm group s dice).subset (mem_of_spin hroll)
  · intro roll hnone
    rw [h.roll_eq]
    cases hspin : spin s.width roll 0 (group.wheel s dice) with
    | some item =>
      have hitem := (wheel_perm group s dice).subset (mem_of_spin hspin)
      exact absurd ((h.roll_eq_some_iff (hchance item hitem)).mpr hspin) (hnone item hitem)
    | none => exact fallback_spec group s dice

/-- A loot for a party, of which all are there and meet all conditions. -/
def partySetting (party : List ℕ) : Setting where
  loot := party.foldl Loot.addLooter ⟨[],3,[]⟩
  lootMode := 1
  findPlayer := some
  isObjectMeetToConditions := fun _ _ => true

/-- Dice that change nothing. -/
def plainDice : Dice where
  shuffle := id
  urand := fun _ => 0
  perm := List.Perm.refl
  urand_le := Nat.zero_le

/-- A group of a single entry. -/
def singleGroup (chance : ℚ) : LootGroup :=
  LootGroup.empty.addEntry (.create 1 20 chance 1 1 1 1 0)

/-- Two looters can use each of the entries, whose chances fill the range. -/
theorem fairOdds_iff_party :
    FairOdds ((singleGroup 60).addEntry (.create 2 21 40 1 1 1 1 0)) (partySetting [1,2]) plainDice
      fun _ => 0 := by
  refine (fairOdds_iff _ ((wellFormed_empty.addEntry List.not_mem_nil).addEntry
    (by decide +kernel)) _ _ _).mpr (Or.inr ⟨by decide +kernel,2,by decide +kernel⟩)

/-- Two looters get an entry of sixty per cent every time. -/
theorem not_fairOdds_pair :
    ¬FairOdds (singleGroup 60) (partySetting [1,2]) plainDice fun _ => 0 := by
  intro h
  have hcandidate : LootStoreItem.create 1 20 60 1 1 1 1 0∈
      (singleGroup 60).candidates (partySetting [1,2]) := by decide +kernel
  have hmax : (singleGroup 60).rollMax (partySetting [1,2]) plainDice (fun _ => 0)=120 := by
    decide +kernel
  have hshare := h.share _ hcandidate
  rw [hmax] at hshare
  have hfull := hshare.full (by norm_num) ⟨le_refl 0,by norm_num,by decide +kernel⟩
    ⟨by norm_num,le_refl 120,by decide +kernel⟩
  revert hfull
  decide +kernel

end Projectnelth.LootGroupModel
