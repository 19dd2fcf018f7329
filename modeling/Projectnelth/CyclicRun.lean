import Mathlib

/-!
# Runs of numbers around a circle

So many numbers one after the other modulo a bound. A run that is not longer than the bound has no
number twice, the number behind a run that is as long as the bound is its first one, and behind a
shorter run it is not in it.
-/

namespace Projectnelth.CyclicRun

variable {m first n : ℕ}

/-- The run of so many numbers from the first one on. -/
def cycle (m first n : ℕ) : List ℕ := (List.range n).map fun i => (first+i)%m

theorem cycle_succ (m first n : ℕ) :
    cycle m first (n+1)=cycle m first n++[(first+n)%m] := by
  simp only [cycle,List.range_succ,List.map_append,List.map_cons,List.map_nil]

/-- The first number of a run, and the run behind it. -/
theorem cycle_cons (m first n : ℕ) :
    cycle m first (n+1)=first%m::cycle m (first+1) n := by
  unfold cycle
  rw [List.range_succ_eq_map,List.map_cons,List.map_map]
  congr 1
  apply List.map_congr_left
  intro i _
  simp only [Function.comp_apply,Nat.succ_eq_add_one]
  congr 1
  omega

theorem lt_of_mem_cycle (hm : 0 < m) {k : ℕ} (h : k∈cycle m first n) : k < m := by
  unfold cycle at h
  obtain ⟨i,_,hi⟩ := List.mem_map.mp h
  rw [← hi]
  exact Nat.mod_lt _ hm

/-- Two places of a run that are less than the bound apart have different numbers. -/
theorem mod_ne_of_lt {i j : ℕ} (hij : i < j) (hj : j < i+m) : (first+i)%m≠(first+j)%m := by
  intro heq
  have hmod : (first+i)≡(first+j) [MOD m] := heq
  have hdvd := (Nat.modEq_iff_dvd' (by omega)).mp hmod
  have hle := Nat.le_of_dvd (by omega) hdvd
  omega

/-- A run that is not longer than the bound has no number twice. -/
theorem nodup_cycle (hn : n ≤ m) : (cycle m first n).Nodup := by
  unfold cycle
  apply List.Nodup.map_on _ List.nodup_range
  intro i hi j hj heq
  rw [List.mem_range] at hi hj
  rcases lt_trichotomy i j with hlt | heq' | hlt
  · exact absurd heq (mod_ne_of_lt hlt (by omega))
  · exact heq'
  · exact absurd heq.symm (mod_ne_of_lt hlt (by omega))

/-- The number behind a shorter run is not in it. -/
theorem next_not_mem (hn : n < m) : (first+n)%m∉cycle m first n := by
  intro h
  unfold cycle at h
  obtain ⟨i,hi,heq⟩ := List.mem_map.mp h
  rw [List.mem_range] at hi
  exact mod_ne_of_lt hi (by omega) heq

end Projectnelth.CyclicRun
