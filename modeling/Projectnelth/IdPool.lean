import Mathlib

/-!
# A pool of ids

Ids are counted up to the highest one, and those that came back are kept in a list and given out
again first. The highest one goes down when it comes back itself. Numbers wrap at a modulus.
The pool is sound for the ids that are in use when these are distinct, none of them is free,
and zero is neither in use nor free.
-/

namespace Projectnelth

/-- The highest id, and the ids that came back. -/
structure IdPool where
  highest : ℕ
  /-- The ids that came back, the oldest first. -/
  free : List ℕ
  deriving DecidableEq

namespace IdPool

variable {M id : ℕ} {pool : IdPool} {live live' : List ℕ}

/-- An id is given out. -/
def take (M : ℕ) (pool : IdPool) : ℕ×IdPool :=
  match pool.free with
  | [] => ((pool.highest+1)%M,⟨(pool.highest+1)%M,[]⟩)
  | id::rest => (id,⟨pool.highest,rest⟩)

/-- An id comes back. -/
def release (M id : ℕ) (pool : IdPool) : IdPool :=
  if id=pool.highest then ⟨(pool.highest+(M-1))%M,pool.free⟩
  else ⟨pool.highest,pool.free++[id]⟩

/-- The pool for ids that are there already. -/
def load (ids : List ℕ) : IdPool :=
  let highest := ids.foldl max 0
  ⟨highest,(List.range' 1 (highest-1)).filter fun id => id∉ids⟩

/-- The pool is sound for the ids that are in use. -/
structure Ok (M : ℕ) (pool : IdPool) (live : List ℕ) : Prop where
  /-- An id is in use once. -/
  used : live.Nodup
  /-- An id is free once. -/
  freed : pool.free.Nodup
  apart : ∀ id∈live, id∉pool.free
  /-- The ids were given out. -/
  bound : ∀ id, id∈live ∨ id∈pool.free → 0 < id ∧ id ≤ pool.highest
  /-- The highest id fits. -/
  fits : pool.highest < M

/-- There is an id to give out without wrapping. -/
def Room (M n : ℕ) (pool : IdPool) : Prop := pool.highest+(n-pool.free.length) < M

instance : Decidable (Room M id pool) := inferInstanceAs (Decidable (_ < _))

/-- The order of the ids in use does not matter. -/
theorem Ok.perm (h : Ok M pool live) (hperm : live.Perm live') : Ok M pool live' :=
  ⟨hperm.nodup_iff.mp h.used,h.freed,fun id hid => h.apart id (hperm.mem_iff.mpr hid),
    fun id hid => h.bound id (hid.imp_left hperm.mem_iff.mpr),h.fits⟩

/-- An id may be lost without coming back. -/
theorem Ok.sublist (h : Ok M pool live) (hsub : live'.Sublist live) : Ok M pool live' :=
  ⟨h.used.sublist hsub,h.freed,fun id hid => h.apart id (hsub.subset hid),
    fun id hid => h.bound id (hid.imp_left fun hmem => hsub.subset hmem),h.fits⟩

/-- What is given out is not zero and not in use, and the pool stays sound. -/
theorem Ok.take (h : Ok M pool live) {n : ℕ} (hroom : Room M (n+1) pool) :
    (pool.take M).1≠0 ∧ (pool.take M).1∉live ∧ Ok M (pool.take M).2 ((pool.take M).1::live) ∧
      Room M n (pool.take M).2 := by
  obtain ⟨highest,free⟩ := pool
  unfold Room at hroom ⊢
  unfold IdPool.take
  cases free with
  | nil =>
    simp only [List.length_nil,Nat.sub_zero] at hroom ⊢
    rw [Nat.mod_eq_of_lt (by omega)]
    have hnew : highest+1∉live := fun hmem => by
      have hle := (h.bound _ (Or.inl hmem)).2
      simp only at hle
      omega
    refine ⟨Nat.succ_ne_zero highest,hnew,⟨List.nodup_cons.mpr ⟨hnew,h.used⟩,List.nodup_nil,
      fun _ _ => List.not_mem_nil,fun id hid => ?_,by simp only; omega⟩,by omega⟩
    rcases hid with hid | hid
    · rcases List.mem_cons.mp hid with rfl | hid
      · exact ⟨Nat.succ_pos highest,le_rfl⟩
      · exact ⟨(h.bound id (Or.inl hid)).1,(h.bound id (Or.inl hid)).2.trans (Nat.le_succ _)⟩
    · exact absurd hid List.not_mem_nil
  | cons id rest =>
    simp only [List.length_cons] at hroom ⊢
    obtain ⟨hnotin,hrest⟩ := List.nodup_cons.mp h.freed
    have hnew : id∉live := fun hmem => h.apart id hmem List.mem_cons_self
    refine ⟨(h.bound id (Or.inr List.mem_cons_self)).1.ne',hnew,
      ⟨List.nodup_cons.mpr ⟨hnew,h.used⟩,hrest,fun id' hid' => ?_,fun id' hid' => ?_,h.fits⟩,
      by omega⟩
    · rcases List.mem_cons.mp hid' with rfl | hid'
      · exact hnotin
      · exact fun hmem => h.apart id' hid' (List.mem_cons_of_mem id hmem)
    · rcases hid' with hid' | hid'
      · rcases List.mem_cons.mp hid' with rfl | hid'
        · exact h.bound id' (Or.inr List.mem_cons_self)
        · exact h.bound id' (Or.inl hid')
      · exact h.bound id' (Or.inr (List.mem_cons_of_mem id hid'))

/-- An id in use may come back. -/
theorem Ok.release (h : Ok M pool (id::live)) : Ok M (pool.release M id) live := by
  obtain ⟨hnotin,hlive⟩ := List.nodup_cons.mp h.used
  have hid := h.bound id (Or.inl List.mem_cons_self)
  have hfit := h.fits
  unfold IdPool.release
  split_ifs with hhighest
  · have hdown : (pool.highest+(M-1))%M=pool.highest-1 := by
      rw [show pool.highest+(M-1)=pool.highest-1+M by omega,Nat.add_mod_right,
        Nat.mod_eq_of_lt (by omega)]
    rw [hdown]
    refine ⟨hlive,h.freed,fun id' hid' => h.apart id' (List.mem_cons_of_mem id hid'),
      fun id' hid' => ?_,by simp only; omega⟩
    have hne : id'≠id := fun he => by
      rcases hid' with hid' | hid'
      · exact hnotin (he ▸ hid')
      · exact h.apart id List.mem_cons_self (he ▸ hid')
    have hold := h.bound id' (hid'.imp_left (List.mem_cons_of_mem id))
    simp only
    omega
  · refine ⟨hlive,?_,fun id' hid' hmem => ?_,fun id' hid' => ?_,hfit⟩
    · exact List.nodup_append.mpr ⟨h.freed,List.nodup_singleton id,fun a ha b hb he =>
        h.apart id List.mem_cons_self (List.mem_singleton.mp hb ▸ he ▸ ha)⟩
    · rcases List.mem_append.mp hmem with hmem | hmem
      · exact h.apart id' (List.mem_cons_of_mem id hid') hmem
      · exact hnotin (List.mem_singleton.mp hmem ▸ hid')
    · rcases hid' with hid' | hid'
      · exact h.bound id' (Or.inl (List.mem_cons_of_mem id hid'))
      · rcases List.mem_append.mp hid' with hid' | hid'
        · exact h.bound id' (Or.inr hid')
        · rw [List.mem_singleton.mp hid']
          exact hid

/-- So may several. -/
theorem Ok.release_all {ids : List ℕ} (h : Ok M pool (ids++live)) :
    Ok M (ids.foldl (fun pool id => pool.release M id) pool) live := by
  induction ids generalizing pool with
  | nil => exact h
  | cons id ids ih => exact ih h.release

/-- The highest of some ids is not below any of them. -/
theorem le_foldl_max (ids : List ℕ) (m : ℕ) :
    m ≤ ids.foldl max m ∧ ∀ id∈ids, id ≤ ids.foldl max m := by
  induction ids generalizing m with
  | nil => exact ⟨le_rfl,(by rintro _ ⟨⟩)⟩
  | cons id ids ih =>
    obtain ⟨hm,hids⟩ := ih (max m id)
    refine ⟨(le_max_left m id).trans hm,fun id' hid' => ?_⟩
    rcases List.mem_cons.mp hid' with rfl | hid'
    · exact (le_max_right m id').trans hm
    · exact hids id' hid'

/-- It is below what they are all below. -/
theorem foldl_max_lt {ids : List ℕ} {m : ℕ} (hm : m < M) (hids : ∀ id∈ids, id < M) :
    ids.foldl max m < M := by
  induction ids generalizing m with
  | nil => exact hm
  | cons id ids ih =>
    exact ih (max_lt hm (hids id List.mem_cons_self)) fun id' hid' =>
      hids id' (List.mem_cons_of_mem id hid')

/-- The pool of some ids is sound for them. -/
theorem ok_load {ids : List ℕ} (hM : 0 < M) (hids : ids.Nodup) (hpos : ∀ id∈ids, 0 < id)
    (hfits : ∀ id∈ids, id < M) : Ok M (load ids) ids := by
  refine ⟨hids,(List.nodup_range' 1).filter _,fun id hid hmem => ?_,fun id hid => ?_,
    foldl_max_lt hM hfits⟩
  · exact of_decide_eq_true (List.mem_filter.mp hmem).2 hid
  · rcases hid with hid | hid
    · exact ⟨hpos id hid,(le_foldl_max ids 0).2 id hid⟩
    · have hrange := List.mem_range'_1.mp (List.mem_of_mem_filter hid)
      show 0 < id ∧ id ≤ ids.foldl max 0
      omega

end IdPool

end Projectnelth
