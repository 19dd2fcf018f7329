import Mathlib

/-!
# Choosing by a roll along cumulative weights

The entries of a list lie one after the other on a line, each as long as its weight. A roll takes
the first entry that does not end before it. So an entry takes up an interval as long as its
weight, wherever in the list it stands.
-/

namespace RouletteWheel

variable {α K : Type*} [Field K] {weight : α → K} {roll start : K} {l : List α} {x : α}

/-- How long the entries of a list are together. -/
def total (weight : α → K) (l : List α) : K := (l.map weight).sum

@[simp] theorem total_nil : total weight []=0 := rfl

@[simp] theorem total_cons : total weight (x::l)=weight x+total weight l := by
  simp [total]

theorem total_perm {l' : List α} (h : l.Perm l') : total weight l=total weight l' :=
  (h.map weight).sum_eq

variable [LinearOrder K]

/-- The first entry that does not end before the roll, where the entries start at `start`. -/
def spin (weight : α → K) (roll : K) : K → List α → Option α
  | _,[] => none
  | start,x::l =>
    if roll ≤ start+weight x then some x else spin weight roll (start+weight x) l

@[simp] theorem spin_nil : spin weight roll start []=none := rfl

/-- What is taken is an entry of the list. -/
theorem mem_of_spin (h : spin weight roll start l=some x) : x∈l := by
  induction l generalizing start with
  | nil => cases h
  | cons y l ih =>
    simp only [spin] at h
    split at h
    · cases h
      exact List.mem_cons_self
    · exact List.mem_cons_of_mem y (ih h)

variable [IsStrictOrderedRing K]

theorem total_nonneg (hweight : ∀ x∈l,0 ≤ weight x) : 0 ≤ total weight l :=
  List.sum_nonneg (by simpa using hweight)

/-- An entry is taken by the rolls of an interval that is as long as its weight. -/
theorem spin_interval (start : K) (hpos : ∀ x∈l,0 < weight x) (hnodup : l.Nodup) (hx : x∈l) :
    ∃ a,start ≤ a ∧ a+weight x ≤ start+total weight l ∧
      (∀ roll,a < roll → roll ≤ a+weight x → spin weight roll start l=some x) ∧
      ∀ roll,start ≤ roll → spin weight roll start l=some x → a ≤ roll ∧ roll ≤ a+weight x := by
  induction l generalizing start with
  | nil => cases hx
  | cons y l ih =>
    obtain ⟨hy,hnodup⟩ := List.nodup_cons.mp hnodup
    have hwy := hpos y List.mem_cons_self
    have htail : ∀ x∈l,0 < weight x := fun x h => hpos x (List.mem_cons_of_mem y h)
    have htotal := total_nonneg fun x h => (htail x h).le
    by_cases hxy : x=y
    · subst hxy
      refine ⟨start,le_refl start,by rw [total_cons]; linarith,fun roll _ hle => if_pos hle,?_⟩
      intro roll hstart h
      refine ⟨hstart,?_⟩
      -- past its end the entry is not found again
      by_contra hlate
      simp only [spin,if_neg hlate] at h
      exact hy (mem_of_spin h)
    · have hxl : x∈l := (List.mem_cons.mp hx).resolve_left hxy
      obtain ⟨a,hstart,hend,htaken,honly⟩ := ih (start+weight y) htail hnodup hxl
      refine ⟨a,by linarith,by rw [total_cons]; linarith,?_,?_⟩
      · intro roll hlt hle
        have hlate : ¬roll ≤ start+weight y := by linarith
        simp only [spin,if_neg hlate]
        exact htaken roll hlt hle
      · intro roll _ h
        simp only [spin] at h
        split at h
        · cases h
          exact absurd rfl hxy
        · exact honly roll (by linarith) h

/-! ## Shares -/

/-- The rolls take up a share of the range from zero to `top`: they are an interval that is as
long, with or without its ends. -/
def HasShare (rolls : Set K) (top share : K) : Prop :=
  ∃ a b,0 ≤ a ∧ a ≤ b ∧ b ≤ top ∧ b-a=share*top ∧
    Set.Ioo a b ⊆ rolls ∧ rolls ⊆ Set.Icc a b

/-- An interval without its ends is no longer than one with its ends that holds it. -/
theorem length_le_of_subset {a b a' b' : K} (hab' : a' ≤ b')
    (h : Set.Ioo a b ⊆ Set.Icc a' b') : b-a ≤ b'-a' := by
  by_contra hlonger
  have hlt : a < b := by linarith
  have hleft : a' ≤ a := by
    by_contra hgt
    obtain ⟨c,hac,hc⟩ := exists_between (lt_min hlt (not_le.mp hgt))
    have hin := h ⟨hac,hc.trans_le (min_le_left ..)⟩
    exact absurd hin.1 (not_le.mpr (hc.trans_le (min_le_right ..)))
  have hright : b ≤ b' := by
    by_contra hgt
    obtain ⟨c,hc,hcb⟩ := exists_between (max_lt hlt (not_le.mp hgt))
    have hin := h ⟨(le_max_left ..).trans_lt hc,hcb⟩
    exact absurd hin.2 (not_le.mpr ((le_max_right ..).trans_lt hc))
  linarith

theorem HasShare.unique {rolls : Set K} {top share share' : K} (htop : 0 < top)
    (h : HasShare rolls top share) (h' : HasShare rolls top share') : share=share' := by
  obtain ⟨a,b,_,hab,_,hlength,hin,hout⟩ := h
  obtain ⟨a',b',_,hab',_,hlength',hin',hout'⟩ := h'
  have hle := length_le_of_subset hab' (hin.trans hout')
  have hge := length_le_of_subset hab (hin'.trans hout)
  refine mul_right_cancel₀ htop.ne' ?_
  linarith

/-- Rolls that reach from one end of the range to the other have all of it. -/
theorem HasShare.full {rolls : Set K} {top share : K} (htop : 0 < top)
    (h : HasShare rolls top share) (hzero : 0∈rolls) (hend : top∈rolls) : share=1 := by
  obtain ⟨a,b,ha,_,hb,hlength,_,hout⟩ := h
  have hfirst := hout hzero
  have hlast := hout hend
  refine mul_right_cancel₀ htop.ne' ?_
  linarith [hfirst.1,hlast.2]

/-- An entry has the share of its weight in a range that all entries fit in. -/
theorem hasShare_spin {top : K} (hpos : ∀ x∈l,0 < weight x) (hnodup : l.Nodup) (hx : x∈l)
    (hfits : total weight l ≤ top) (htop : 0 < top) :
    HasShare {roll | 0 ≤ roll ∧ roll ≤ top ∧ spin weight roll 0 l=some x} top
      (weight x/top) := by
  obtain ⟨a,hstart,hend,htaken,honly⟩ := spin_interval 0 hpos hnodup hx
  have hweight := hpos x hx
  refine ⟨a,a+weight x,hstart,by linarith,by linarith,?_,?_,?_⟩
  · rw [div_mul_cancel₀ _ htop.ne']
    ring
  · intro roll ⟨hlt,hgt⟩
    exact ⟨by linarith,by linarith,htaken roll hlt hgt.le⟩
  · intro roll ⟨hzero,_,h⟩
    exact honly roll hzero h

end RouletteWheel
