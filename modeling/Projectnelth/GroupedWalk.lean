import Mathlib
import Projectnelth.OrderedMap

/-!
# Rows that are met group by group

A list of rows is gone through with one value for each group of rows: the first row of a group
brings in the widest value, every row narrows the value of its group, and a group whose value
is dead is left alone.
-/

namespace Projectnelth.GroupedWalk

open OrderedMap

/-- What a group starts with, how a row narrows it, and when nothing can change it. -/
structure Narrowing (β : Type*) where
  /-- The value a group is filled with at its first row. -/
  widest : β
  /-- The value of a group together with the value of a row. -/
  narrow : β → β → β
  /-- Whether no row has to be looked at any more. -/
  dead : β → Bool

variable {σ ι κ β : Type*} [LinearOrder κ]

/-- One row is gone past: `none` where its value cannot be had. -/
def visit (N : Narrowing β) (group : ι → κ) (row : σ → ι → Option (β×σ)) (m : List (κ×β)) (s : σ)
    (i : ι) : Option (List (κ×β)×σ) :=
  let b := (find (group i) m).getD N.widest
  if (find (group i) m).isSome ∧ N.dead b=true then some (m,s)
  else (row s i).map fun r => (write (group i) (N.narrow b r.1) m,r.2)

/-- The rows are gone through in their order. -/
def walk (N : Narrowing β) (group : ι → κ) (row : σ → ι → Option (β×σ)) :
    List (κ×β) → σ → List ι → Option (List (κ×β)×σ)
  | m,s,[] => some (m,s)
  | m,s,i::l => (visit N group row m s i).bind fun r => walk N group row r.1 r.2 l

section Visits

variable {N : Narrowing β} {group : ι → κ} {row : σ → ι → Option (β×σ)} {m : List (κ×β)} {s : σ}
  {i : ι}

/-- A row of a group whose value is dead is left alone. -/
theorem visit_dead {b : β} (hb : find (group i) m=some b) (hd : N.dead b=true) :
    visit N group row m s i=some (m,s) := by
  unfold visit
  dsimp only
  rw [hb]
  exact if_pos ⟨rfl,hd⟩

theorem visit_asked (h : ∀ b,find (group i) m=some b → N.dead b=false) :
    visit N group row m s i=(row s i).map fun r =>
      (write (group i) (N.narrow ((find (group i) m).getD N.widest) r.1) m,r.2) := by
  unfold visit
  dsimp only
  cases hb : find (group i) m with
  | none => exact if_neg fun hx => Bool.noConfusion hx.1
  | some b => exact if_neg fun hx => Bool.false_ne_true ((h b hb).symm.trans hx.2)

theorem sorted_walk {l : List ι} {m' : List (κ×β)} {s' : σ} (hm : Sorted m)
    (h : walk N group row m s l=some (m',s')) : Sorted m' := by
  induction l generalizing m s with
  | nil =>
    cases h
    exact hm
  | cons i l ih =>
    obtain ⟨⟨m₁,s₁⟩,hvisit,hwalk⟩ := Option.bind_eq_some_iff.mp h
    refine ih ?_ hwalk
    unfold visit at hvisit
    dsimp only at hvisit
    split_ifs at hvisit
    · cases hvisit
      exact hm
    · obtain ⟨r,-,hr⟩ := Option.map_eq_some_iff.mp hvisit
      cases hr
      exact hm.write _ _

end Visits

/-! ## What the values of the groups say -/

/-- What a value says: which things it lets through. A dead one lets nothing through. -/
structure Meaning (N : Narrowing β) (τ : Type*) where
  /-- The values that come up. -/
  valid : β → Prop
  /-- Whether a value lets a thing through. -/
  lets : β → τ → Prop
  widest_valid : valid N.widest
  narrow_valid : ∀ {b} b',valid b → valid (N.narrow b b')
  /-- There is something to let through. -/
  thing : τ
  widest : ∀ t,lets N.widest t
  narrow : ∀ b b' t,lets (N.narrow b b') t ↔ lets b t ∧ lets b' t
  dead : ∀ {b},valid b → (N.dead b=true ↔ ∀ t,¬lets b t)

variable {τ : Type*} {N : Narrowing β} {M : Meaning N τ} {group : ι → κ} {lets : ι → τ → Prop}
  {before : List ι} {m : List (κ×β)} {i : ι}

/-- The rows before one of the same group let some thing through. -/
def Live (group : ι → κ) (lets : ι → τ → Prop) (before : List ι) (i : ι) : Prop :=
  ∃ t,∀ j∈before,group j=group i → lets j t

/-- A map after some rows: the value of a group lets through what all its rows do. -/
structure Kept (M : Meaning N τ) (group : ι → κ) (lets : ι → τ → Prop) (before : List ι)
    (m : List (κ×β)) : Prop where
  sorted : Sorted m
  came : ∀ k,find k m≠none ↔ ∃ i∈before,group i=k
  valid : ∀ k,M.valid ((find k m).getD N.widest)
  through : ∀ k t,M.lets ((find k m).getD N.widest) t ↔ ∀ i∈before,group i=k → lets i t

theorem kept_nil (M : Meaning N τ) (group : ι → κ) (lets : ι → τ → Prop) :
    Kept M group lets [] [] where
  sorted := List.Pairwise.nil
  came _ := iff_of_false (not_not_intro rfl) (by rintro ⟨i,hi,-⟩; cases hi)
  valid _ := M.widest_valid
  through _ t := iff_of_true (M.widest t) fun _ hi => absurd hi List.not_mem_nil

theorem Kept.live (h : Kept M group lets before m) (i : ι) :
    Live group lets before i ↔ N.dead ((find (group i) m).getD N.widest)=false := by
  rw [← Bool.not_eq_true,M.dead (h.valid _),not_forall_not]
  exact exists_congr fun t => (h.through (group i) t).symm

/-- A row whose group lets something through is asked, and narrows it. -/
theorem Kept.visit_live {row : σ → ι → Option (β×σ)} {s : σ} (h : Kept M group lets before m)
    (hlive : Live group lets before i) :
    visit N group row m s i=(row s i).map (fun r =>
        (write (group i) (N.narrow ((find (group i) m).getD N.widest) r.1) m,r.2)) ∧
      ∀ b,(∀ t,M.lets b t ↔ lets i t) → Kept M group lets (before++[i])
        (write (group i) (N.narrow ((find (group i) m).getD N.widest) b) m) := by
  refine ⟨visit_asked fun b hb => ?_,fun b hb => ⟨h.sorted.write _ _,fun k => ?_,fun k => ?_,
    fun k t => ?_⟩⟩
  · rw [h.live,hb] at hlive
    exact hlive
  · simp only [find_write,List.mem_append,or_and_right,exists_or]
    split
    · next hk =>
      exact iff_of_true (Option.some_ne_none _) (Or.inr ⟨i,List.mem_singleton_self i,hk⟩)
    · next hk =>
      rw [h.came,or_iff_left]
      rintro ⟨j,hj,hkj⟩
      exact hk (List.mem_singleton.mp hj ▸ hkj)
  · rw [find_write]
    split
    · exact M.narrow_valid b (h.valid _)
    · exact h.valid k
  · rw [find_write,List.forall_mem_append,List.forall_mem_singleton]
    split
    · next hk =>
      subst hk
      rw [Option.getD_some,M.narrow,h.through,hb]
      exact and_congr_right fun _ => ⟨fun hi _ => hi,fun hi => hi rfl⟩
    · next hk =>
      rw [h.through]
      exact (and_iff_left fun heq => absurd heq hk).symm

/-- Any other row is left alone. -/
theorem Kept.visit_dead {row : σ → ι → Option (β×σ)} {s : σ} (h : Kept M group lets before m)
    (hdead : ¬Live group lets before i) :
    visit N group row m s i=some (m,s) ∧ Kept M group lets (before++[i]) m := by
  have hvalue := (h.live i).not.mp hdead
  rw [Bool.not_eq_false] at hvalue
  have hnone := (M.dead (h.valid _)).mp hvalue
  have hsome : find (group i) m≠none := fun hnone' => by
    rw [hnone'] at hnone
    exact hnone M.thing (M.widest M.thing)
  obtain ⟨b,hb⟩ := Option.ne_none_iff_exists'.mp hsome
  rw [hb] at hvalue
  refine ⟨GroupedWalk.visit_dead hb hvalue,h.sorted,fun k => ?_,h.valid,fun k t => ?_⟩
  · simp only [List.mem_append,or_and_right,exists_or]
    rw [← h.came k,iff_self_or]
    rintro ⟨j,hj,rfl⟩
    rwa [List.mem_singleton.mp hj]
  · rw [List.forall_mem_append,List.forall_mem_singleton,← h.through]
    refine iff_self_and.mpr fun hlets hk => ?_
    subst hk
    exact absurd hlets (hnone t)

/-- Some value lets a thing through where all rows of some group do. -/
theorem Kept.exists_lets (h : Kept M group lets before m) (t : τ) :
    (∃ g∈m,M.lets g.2 t) ↔ ∃ i∈before,∀ j∈before,group j=group i → lets j t := by
  constructor
  · rintro ⟨⟨k,b⟩,hmem,hlets⟩
    have hfind : find k m=some b := h.sorted.find_of_mem hmem
    obtain ⟨i,hi,rfl⟩ := (h.came k).mp (hfind ▸ Option.some_ne_none b)
    have hall := h.through (group i) t
    rw [hfind] at hall
    exact ⟨i,hi,hall.mp hlets⟩
  · rintro ⟨i,hi,hall⟩
    obtain ⟨b,hb⟩ := Option.ne_none_iff_exists'.mp ((h.came (group i)).mpr ⟨i,hi,rfl⟩)
    have hlets := (h.through (group i) t).mpr hall
    rw [hb] at hlets
    exact ⟨_,mem_of_find hb,hlets⟩

end Projectnelth.GroupedWalk
