import Mathlib

/-!
# Runs of a transition function

A component is a total step function on an explicit state; whatever the
environment decides (packet arguments, random rolls, clock readings) is part
of the action. A property kept by every step whose action meets a condition
then holds after every run whose steps all meet it. Since the runs are closed
under prefixes, this is the statement about every reached state.
-/

namespace Projectnelth.RunInvariant

variable {σ α : Type*}

/-- The state after a finite run of actions, the oldest first. -/
def run (step : σ → α → σ) : σ → List α → σ
  | s,[] => s
  | s,a::as => run step (step s a) as

/-- Every action of the run meets the condition in the state it is taken from. -/
def Meets (step : σ → α → σ) (cond : σ → α → Prop) : σ → List α → Prop
  | _,[] => True
  | s,a::as => cond s a ∧ Meets step cond (step s a) as

instance Meets.decidable (step : σ → α → σ) (cond : σ → α → Prop) [∀ s a, Decidable (cond s a)] :
    ∀ s as, Decidable (Meets step cond s as)
  | _,[] => isTrue trivial
  | s,a::as =>
    match (inferInstance : Decidable (cond s a)),Meets.decidable step cond (step s a) as with
    | isTrue h,isTrue hs => isTrue ⟨h,hs⟩
    | isFalse h,_ => isFalse fun hm => h hm.1
    | _,isFalse hs => isFalse fun hm => hs hm.2

theorem run_eq_foldl (step : σ → α → σ) (s : σ) (as : List α) : run step s as=as.foldl step s := by
  induction as generalizing s with
  | nil => rfl
  | cons a as ih => exact ih (step s a)

/-- A run over two stretches is the second run from where the first ends. -/
theorem run_append (step : σ → α → σ) (s : σ) (as bs : List α) :
    run step s (as++bs)=run step (run step s as) bs := by
  induction as generalizing s with
  | nil => rfl
  | cons a as ih => exact ih (step s a)

/-- A condition along two stretches is the condition along each of them. -/
theorem meets_append {step : σ → α → σ} {cond : σ → α → Prop} {s : σ} {as bs : List α} :
    Meets step cond s (as++bs) ↔ Meets step cond s as ∧ Meets step cond (run step s as) bs := by
  induction as generalizing s with
  | nil => simp only [List.nil_append,Meets,run,true_and]
  | cons a as ih => simp only [List.cons_append,Meets,run,ih,and_assoc]

/-- A weaker condition is met by every run that meets a stronger one. -/
theorem Meets.imp {step : σ → α → σ} {cond cond' : σ → α → Prop}
    (h : ∀ s a, cond s a → cond' s a) {s : σ} {as : List α} (hm : Meets step cond s as) :
    Meets step cond' s as := by
  induction as generalizing s with
  | nil => trivial
  | cons a as ih => exact ⟨h s a hm.1,ih hm.2⟩

/-- Two conditions that agree wherever a guard is met agree along every run that meets the
guard. -/
theorem meets_congr {step : σ → α → σ} {guard cond cond' : σ → α → Prop} {I : σ → Prop}
    (hstep : ∀ s a, I s → guard s a → I (step s a))
    (hcond : ∀ s a, I s → guard s a → (cond s a ↔ cond' s a)) {s : σ} {as : List α}
    (hs : I s) (hguard : Meets step guard s as) :
    Meets step cond s as ↔ Meets step cond' s as := by
  induction as generalizing s with
  | nil => exact Iff.rfl
  | cons a as ih =>
    exact and_congr (hcond s a hs hguard.1) (ih (hstep s a hs hguard.1) hguard.2)

/-- Two conditions that agree wherever an invariant holds, which either of them keeps, agree
along every run that starts under it. -/
theorem meets_iff {step : σ → α → σ} {cond cond' : σ → α → Prop} {I : σ → Prop}
    (hcond : ∀ s a, I s → (cond s a ↔ cond' s a))
    (hstep : ∀ s a, I s → cond s a → I (step s a)) {s : σ} {as : List α} (hs : I s) :
    Meets step cond s as ↔ Meets step cond' s as := by
  induction as generalizing s with
  | nil => exact Iff.rfl
  | cons a as ih =>
    refine ⟨fun h => ⟨(hcond s a hs).mp h.1,(ih (hstep s a hs h.1)).mp h.2⟩,fun h => ?_⟩
    have ha := (hcond s a hs).mpr h.1
    exact ⟨ha,(ih (hstep s a hs ha)).mpr h.2⟩

/-- What follows wherever the invariant holds is met along every conditioned run. -/
theorem meets_of_invariant {step : σ → α → σ} {cond cond' : σ → α → Prop} {I : σ → Prop}
    (hcond : ∀ s a, I s → cond s a → cond' s a) (hstep : ∀ s a, I s → cond s a → I (step s a))
    {s : σ} {as : List α} (hs : I s) (hm : Meets step cond s as) : Meets step cond' s as := by
  induction as generalizing s with
  | nil => trivial
  | cons a as ih => exact ⟨hcond s a hs hm.1,ih (hstep s a hs hm.1) hm.2⟩

/-- What holds in every state of a run holds in the first one and after each step. -/
theorem prefixes_iff_meets {step : σ → α → σ} {I : σ → Prop} {s : σ} {as : List α} :
    (∀ bs, bs <+: as → I (run step s bs)) ↔ I s ∧ Meets step (fun t a => I (step t a)) s as := by
  induction as generalizing s with
  | nil =>
    refine ⟨fun h => ⟨h [] (List.prefix_refl []),trivial⟩,fun h bs hbs => ?_⟩
    rw [List.prefix_nil.mp hbs]
    exact h.1
  | cons a as ih =>
    constructor
    · intro h
      have htail := ih.mp fun bs hbs => h (a::bs) ((List.prefix_cons_inj a).mpr hbs)
      exact ⟨h [] List.nil_prefix,htail⟩
    · rintro ⟨hs,ha,has⟩ bs hbs
      cases bs with
      | nil => exact hs
      | cons b bs =>
        obtain ⟨hb,hrest⟩ := List.cons_prefix_cons.mp hbs
        rw [hb]
        exact ih.mpr ⟨ha,has⟩ bs hrest

/-- Every run meets what always holds. -/
theorem meets_of_forall {step : σ → α → σ} {cond : σ → α → Prop} (h : ∀ s a, cond s a) (s : σ)
    (as : List α) : Meets step cond s as := by
  induction as generalizing s with
  | nil => trivial
  | cons a as ih => exact ⟨h s a,ih (step s a)⟩

theorem run_invariant {step : σ → α → σ} {cond : σ → α → Prop} {I : σ → Prop}
    (hstep : ∀ s a, I s → cond s a → I (step s a)) {s : σ} {as : List α}
    (hs : I s) (hm : Meets step cond s as) : I (run step s as) := by
  induction as generalizing s with
  | nil => exact hs
  | cons a as ih => exact ih (hstep s a hs hm.1) hm.2

theorem run_invariant_always {step : σ → α → σ} {I : σ → Prop} (hstep : ∀ s a, I s → I (step s a))
    {s : σ} (hs : I s) (as : List α) : I (run step s as) := by
  induction as generalizing s with
  | nil => exact hs
  | cons a as ih => exact ih (hstep s a hs)

/-- A step that is right wherever the invariant holds is right at every
place of a conditioned run that starts under the invariant. -/
theorem run_step {step : σ → α → σ} {cond : σ → α → Prop} {I : σ → Prop}
    (hstep : ∀ s a, I s → cond s a → I (step s a)) {s : σ} {as bs : List α} {a : α}
    (hs : I s) (hm : Meets step cond s (as++a::bs)) :
    I (run step s as) ∧ cond (run step s as) a := by
  obtain ⟨ha,hb⟩ := meets_append.mp hm
  exact ⟨run_invariant hstep hs ha,hb.1⟩

end Projectnelth.RunInvariant
