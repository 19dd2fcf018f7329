import Mathlib

/-!
# Selections of indices

A strictly increasing list of natural numbers selects some of them. Its entries are not below
their positions, and they are equal to these exactly where nothing was left out before.
-/

namespace Projectnelth.SortedIndices

variable {l : List ℕ}

/-- Nothing is selected before what is left out. -/
def Initial (l : List ℕ) : Prop := ∀ x∈l,∀ i < x,i∈l

instance (l : List ℕ) : Decidable (Initial l) := by
  unfold Initial
  infer_instance

theorem position_le (h : l.Pairwise fun a b => a < b) (i : ℕ) (hi : i < l.length) : i ≤ l[i] := by
  induction i with
  | zero => exact Nat.zero_le _
  | succ i ih =>
    have hlt : l[i] < l[i+1] := List.pairwise_iff_getElem.mp h i (i+1) _ _ (Nat.lt_succ_self i)
    have hle := ih (by omega)
    omega

/-- A selection from the numbers below a bound is not longer than the bound. -/
theorem length_le (h : l.Pairwise fun a b => a < b) {n : ℕ} (hn : ∀ x∈l,x < n) : l.length ≤ n := by
  by_contra hlong
  have hi : n < l.length := by omega
  have hle := position_le h n hi
  have hlt := hn l[n] (List.getElem_mem hi)
  omega

/-- Each entry of an initial selection is its own position, and the other way round. -/
theorem initial_iff (h : l.Pairwise fun a b => a < b) :
    Initial l ↔ ∀ (i : ℕ) (hi : i < l.length),l[i]=i := by
  constructor
  · intro hinit i
    induction i using Nat.strong_induction_on with
    | _ i ih =>
      intro hi
      by_contra hne
      have hle := position_le h i hi
      -- the position itself was left out, or stands at itself already
      obtain ⟨k,hk,hget⟩ := List.mem_iff_getElem.mp (hinit l[i] (List.getElem_mem hi) i (by omega))
      rcases lt_trichotomy k i with hlt | heq | hgt
      · have hself := ih k hlt hk
        omega
      · subst heq
        exact hne hget
      · have hlt := List.pairwise_iff_getElem.mp h i k hi hk hgt
        omega
  · intro hself x hx i hi
    obtain ⟨k,hk,hget⟩ := List.mem_iff_getElem.mp hx
    have hkx := hself k hk
    have hilen : i < l.length := by omega
    have hmem := List.getElem_mem hilen
    rwa [hself i hilen] at hmem

end Projectnelth.SortedIndices
