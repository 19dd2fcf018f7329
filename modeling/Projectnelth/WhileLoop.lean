import Mathlib

/-!
# While loops with a break

A round of the loop returns the next state and whether the loop goes on. `Runs` is
the loop itself, which need not end; `fuelled` is cut off after a number of
rounds. A measure that every round decreases says that the cut is never reached.
-/

namespace Projectnelth.WhileLoop

variable {σ : Type*} {guard : σ → Bool} {body : σ → σ×Bool}

/-- The loop from the first state ends in the second one. -/
inductive Runs (guard : σ → Bool) (body : σ → σ×Bool) : σ → σ → Prop
  /-- The guard is off. -/
  | exit {s : σ} (hguard : guard s=false) : Runs guard body s s
  /-- The round breaks. -/
  | stop {s r : σ} (hguard : guard s=true) (hbody : body s=(r,false)) : Runs guard body s r
  /-- The loop goes on behind the round. -/
  | round {s t r : σ} (hguard : guard s=true) (hbody : body s=(t,true))
      (hrest : Runs guard body t r) : Runs guard body s r

/-- The loop with a fuel of rounds. -/
def fuelled (guard : σ → Bool) (body : σ → σ×Bool) : ℕ → σ → σ
  | 0,s => s
  | fuel+1,s =>
    if guard s then
      match body s with
      | (t,true) => fuelled guard body fuel t
      | (t,false) => t
    else s

/-- A fuel above the measure is enough for the loop to end. -/
theorem runs_fuelled {I : σ → Prop} {m : σ → ℕ}
    (hbody : ∀ s t,I s → guard s=true → body s=(t,true) → I t ∧ m t < m s)
    {fuel : ℕ} {s : σ} (hinv : I s) (hfuel : m s < fuel) :
    Runs guard body s (fuelled guard body fuel s) := by
  induction fuel generalizing s with
  | zero => exact absurd hfuel (Nat.not_lt_zero _)
  | succ fuel ih =>
    unfold fuelled
    cases hguard : guard s with
    | false =>
      rw [if_neg Bool.false_ne_true]
      exact Runs.exit hguard
    | true =>
      rw [if_pos rfl]
      rcases hround : body s with ⟨t,goes⟩
      cases goes with
      | false => exact Runs.stop hguard hround
      | true =>
        obtain ⟨ht,hlt⟩ := hbody s t hinv hguard hround
        exact Runs.round hguard hround (ih ht (by omega))

/-- What every round keeps holds at the end, where the guard is off or a round broke. -/
theorem Runs.invariant {I : σ → Prop} {B : σ → Prop}
    (hround : ∀ s t,I s → guard s=true → body s=(t,true) → I t)
    (hstop : ∀ s t,I s → guard s=true → body s=(t,false) → I t ∧ B t)
    {s r : σ} (hruns : Runs guard body s r) (hinv : I s) :
    I r ∧ (guard r=false ∨ B r) := by
  induction hruns with
  | exit hguard => exact ⟨hinv,Or.inl hguard⟩
  | stop hguard hbody => exact (hstop _ _ hinv hguard hbody).imp_right Or.inr
  | round hguard hbody _ ih => exact ih (hround _ _ hinv hguard hbody)

end Projectnelth.WhileLoop
