import Mathlib
import Projectnelth.BattlegroundQueuePass

/-!
# The selection pools of a battleground queue

A pool counts the players of its groups and stays within the free places of its
team. `AddGroup` and `KickGroup` keep that, whatever they return.
-/

namespace Projectnelth.BattlegroundQueueModel

open Team BattlegroundQueueGroupTypes BattlegroundQueue

/-- A pool of uninvited groups that fit into the free places together. -/
structure Filled (size : Ptr → ℕ) (invited : Ptr → Bool) (free : ℕ) (pool : SelectionPool) :
    Prop where
  /-- `PlayerCount` counts the players of the groups. -/
  count : pool.PlayerCount=(pool.SelectedGroups.map size).sum
  le : pool.PlayerCount ≤ free
  nodup : pool.SelectedGroups.Nodup
  uninvited : ∀ ginfo∈pool.SelectedGroups,invited ginfo=false

section

variable {size : Ptr → ℕ} {invited : Ptr → Bool} {free : ℕ} {pool : SelectionPool}
variable {q : BattlegroundQueue} {ginfo : Ptr} {desiredCount : ℕ}

theorem Filled.init : Filled size invited free SelectionPool.Init :=
  ⟨rfl,Nat.zero_le free,List.nodup_nil,fun _ h => absurd h List.not_mem_nil⟩

/-- A group that `AddGroup` adds. -/
theorem AddGroup_of_fits (hinvited : q.invited ginfo=false)
    (hfits : pool.PlayerCount+q.size ginfo ≤ desiredCount) :
    pool.AddGroup q ginfo desiredCount=
      (⟨pool.SelectedGroups++[ginfo],pool.PlayerCount+q.size ginfo⟩,true) := by
  unfold SelectionPool.AddGroup
  rw [if_pos (by simp [hinvited,hfits])]

/-- A group that `AddGroup` leaves out; what it returns then only says whether a place is left. -/
theorem AddGroup_of_not_fits
    (h : q.invited ginfo=true ∨ desiredCount < pool.PlayerCount+q.size ginfo) :
    pool.AddGroup q ginfo desiredCount=(pool,decide (pool.PlayerCount < desiredCount)) := by
  unfold SelectionPool.AddGroup
  rw [if_neg]
  rcases h with h | h
  · simp [h]
  · simp only [Bool.and_eq_true,decide_eq_true_eq,not_and,not_le]
    exact fun _ => h

/-- `AddGroup` adds the group or leaves the pool alone. -/
theorem AddGroup_fst_cases (pool : SelectionPool) (q : BattlegroundQueue) (ginfo : Ptr)
    (desiredCount : ℕ) :
    ((pool.AddGroup q ginfo desiredCount).1=
        ⟨pool.SelectedGroups++[ginfo],pool.PlayerCount+q.size ginfo⟩ ∧
      q.invited ginfo=false ∧ pool.PlayerCount+q.size ginfo ≤ desiredCount) ∨
    (pool.AddGroup q ginfo desiredCount).1=pool := by
  by_cases hinvited : q.invited ginfo=true
  · exact Or.inr (congrArg Prod.fst (AddGroup_of_not_fits (Or.inl hinvited)))
  · by_cases hfits : pool.PlayerCount+q.size ginfo ≤ desiredCount
    · have hfalse := Bool.eq_false_of_not_eq_true hinvited
      exact Or.inl ⟨congrArg Prod.fst (AddGroup_of_fits hfalse hfits),hfalse,hfits⟩
    · exact Or.inr (congrArg Prod.fst (AddGroup_of_not_fits (Or.inr (not_le.mp hfits))))

theorem Filled.append (h : Filled q.size q.invited free pool) (hinvited : q.invited ginfo=false)
    (hfits : pool.PlayerCount+q.size ginfo ≤ free) (hnew : ginfo∉pool.SelectedGroups) :
    Filled q.size q.invited free
      ⟨pool.SelectedGroups++[ginfo],pool.PlayerCount+q.size ginfo⟩ := by
  refine ⟨?_,hfits,?_,?_⟩
  · rw [h.count]
    simp
  · rw [List.nodup_append]
    refine ⟨h.nodup,List.nodup_singleton ginfo,?_⟩
    rintro other hother new hmem rfl
    exact hnew (List.mem_singleton.mp hmem ▸ hother)
  · intro other hother
    rcases List.mem_append.mp hother with hother | hother
    · exact h.uninvited other hother
    · rw [List.mem_singleton.mp hother]
      exact hinvited

/-- `AddGroup` with a new group keeps the pool right. -/
theorem Filled.addGroup (h : Filled q.size q.invited free pool) (hdesired : desiredCount ≤ free)
    (hnew : ginfo∉pool.SelectedGroups) :
    Filled q.size q.invited free (pool.AddGroup q ginfo desiredCount).1 := by
  rcases AddGroup_fst_cases pool q ginfo desiredCount with ⟨hadded,hinvited,hfits⟩ | hsame
  · rw [hadded]
    exact h.append hinvited (hfits.trans hdesired) hnew
  · rw [hsame]
    exact h

theorem mem_addGroup {other : Ptr}
    (h : other∈(pool.AddGroup q ginfo desiredCount).1.SelectedGroups) :
    other∈pool.SelectedGroups ∨ other=ginfo := by
  rcases AddGroup_fst_cases pool q ginfo desiredCount with ⟨hadded,-,-⟩ | hsame
  · rw [hadded] at h
    simpa using h
  · rw [hsame] at h
    exact Or.inl h

/-- `AddGroup` keeps the groups of the pool. -/
theorem mem_addGroup_of_mem {other : Ptr} (h : other∈pool.SelectedGroups) :
    other∈(pool.AddGroup q ginfo desiredCount).1.SelectedGroups := by
  rcases AddGroup_fst_cases pool q ginfo desiredCount with ⟨hadded,-,-⟩ | hsame
  · rw [hadded]
    exact List.mem_append_left _ h
  · rw [hsame]
    exact h

/-- The loop of `KickGroup` ends at a group of the pool. -/
theorem groupToKick_mem (size : Ptr → ℕ) (wanted : ℕ) {groups rest : List Ptr} {kick : Ptr}
    {found : Bool} (hrest : rest⊆groups) (hkick : kick∈groups) :
    SelectionPool.groupToKick size wanted rest kick found∈groups := by
  induction rest generalizing kick found with
  | nil => exact hkick
  | cons first rest ih =>
    have hfirst : first∈groups := hrest List.mem_cons_self
    have htail : rest⊆groups := fun p hp => hrest (List.mem_cons_of_mem first hp)
    unfold SelectionPool.groupToKick
    split
    · exact ih htail hfirst
    · split
      · exact ih htail hfirst
      · exact ih htail hkick

/-- `KickGroup` kicks one group of the pool, or finds no player in it. -/
theorem KickGroup_fst_cases (size : Ptr → ℕ) (pool : SelectionPool) (wanted : ℕ) :
    (pool.PlayerCount≠0 ∧ ∃ kicked∈pool.SelectedGroups,(pool.KickGroup size wanted).1=
      ⟨pool.SelectedGroups.erase kicked,pool.PlayerCount-size kicked⟩) ∨
    (pool.PlayerCount=0 ∨ pool.SelectedGroups=[]) ∧ pool.KickGroup size wanted=(pool,true) := by
  unfold SelectionPool.KickGroup
  split
  · rename_i hnil
    exact Or.inr ⟨Or.inr hnil,rfl⟩
  rename_i first rest hcons
  split
  · rename_i hzero
    exact Or.inr ⟨Or.inl hzero,rfl⟩
  rename_i hzero
  refine Or.inl ⟨hzero,_,?_,rfl⟩
  refine groupToKick_mem size wanted (List.Subset.refl _) ?_
  rw [hcons]
  exact List.mem_cons_self

/-- `KickGroup` keeps the pool right. -/
theorem Filled.kickGroup (h : Filled size invited free pool) (wanted : ℕ) :
    Filled size invited free (pool.KickGroup size wanted).1 := by
  rcases KickGroup_fst_cases size pool wanted with ⟨-,kicked,hmem,hkicked⟩ | ⟨-,hsame⟩
  · have hsum := List.sum_map_erase size hmem
    rw [hkicked]
    refine ⟨?_,?_,h.nodup.erase kicked,fun other hother => ?_⟩
    · show pool.PlayerCount-size kicked=((pool.SelectedGroups.erase kicked).map size).sum
      rw [h.count,← hsum,Nat.add_sub_cancel_left]
    · exact (Nat.sub_le _ _).trans h.le
    · exact h.uninvited other (List.mem_of_mem_erase hother)
  · rw [hsame]
    exact h

theorem Filled.eq_nil (h : Filled size invited free pool)
    (hsize : ∀ ginfo∈pool.SelectedGroups,1 ≤ size ginfo) (hzero : pool.PlayerCount=0) :
    pool.SelectedGroups=[] := by
  cases hgroups : pool.SelectedGroups with
  | nil => rfl
  | cons first rest =>
    have hfirst := hsize first (by rw [hgroups]; exact List.mem_cons_self)
    have hcount := h.count
    rw [hzero,hgroups,List.map_cons,List.sum_cons] at hcount
    omega

end

end Projectnelth.BattlegroundQueueModel
