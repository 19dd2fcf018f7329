import Mathlib

/-!
# Single precision

The comparisons of floats are those of an order on the numbers among them; what is no number is
not even at most itself. So a stable sort by a key leaves the greatest first where every key is a
number.
-/

namespace Projectnelth.SinglePrecision

open Float.Model

/-- The comparisons of floats: what is no number is not even at most itself. -/
class FloatOrder (F : Type*) [LT F] [LE F] : Prop where
  trans : ∀ {a b c : F},a ≤ b → b ≤ c → a ≤ c
  total : ∀ {a b : F},a ≤ a → b ≤ b → a ≤ b ∨ b ≤ a
  lt_iff : ∀ {a b : F},a < b ↔ a ≤ b ∧ ¬b ≤ a

/-- A stable sort by a key that is a number throughout leaves the greatest first. -/
theorem pairwise_mergeSort {F α : Type*} [LT F] [LE F] [DecidableLT F] [FloatOrder F] (key : α → F)
    {l : List α} (hnumber : ∀ a∈l,key a ≤ key a) :
    (l.mergeSort fun a b => !decide (key a < key b)).Pairwise fun a b => key b ≤ key a := by
  classical
  -- what is no number comes last, so that the comparison is one of all elements
  let before (a b : α) : Bool := decide (¬key b ≤ key b ∨ (key a ≤ key a ∧ key b ≤ key a))
  have hsame : ∀ a∈l,∀ b∈l,(!decide (key a < key b))=before a b := by
    intro a ha b hb
    have htotal := FloatOrder.total (hnumber a ha) (hnumber b hb)
    rw [← decide_not,decide_eq_decide,FloatOrder.lt_iff,not_and_not_right]
    exact ⟨fun h => .inr ⟨hnumber a ha,htotal.elim h id⟩,
      fun h _ => (h.resolve_left (not_not_intro (hnumber b hb))).2⟩
  have hsort := List.map_mergeSort (f := id) hsame
  rw [List.map_id,List.map_id] at hsort
  have hsorted : (l.mergeSort before).Pairwise fun a b => before a b=true := by
    refine List.pairwise_mergeSort (fun a b c hab hbc => ?_) (fun a b => ?_) l
    · rcases of_decide_eq_true hbc with hc | ⟨hb,hcb⟩
      · exact decide_eq_true (.inl hc)
      · obtain ⟨ha,hba⟩ := (of_decide_eq_true hab).resolve_left (not_not_intro hb)
        exact decide_eq_true (.inr ⟨ha,FloatOrder.trans hcb hba⟩)
    · rw [Bool.or_eq_true,decide_eq_true_eq,decide_eq_true_eq]
      by_cases ha : key a ≤ key a
      · by_cases hb : key b ≤ key b
        · exact (FloatOrder.total hb ha).imp (fun h => .inr ⟨ha,h⟩) fun h => .inr ⟨hb,h⟩
        · exact .inl (.inl hb)
      · exact .inr (.inl ha)
  rw [hsort]
  refine hsorted.imp_of_mem fun {a b} _ hb hab => ?_
  have hb' : b∈l := (List.mergeSort_perm l before).mem_iff.mp hb
  exact ((of_decide_eq_true hab).resolve_left (not_not_intro (hnumber b hb'))).2

/-- Where a float stands: by its class and sign, its exponent and its mantissa. -/
def place : UnpackedFloat → Option (ℤ ×ₗ ℤ ×ₗ ℤ)
  | .notANumber => none
  | .infinity .negative => some (toLex (-2,toLex (0,0)))
  | .finite .negative m e _ => some (toLex (-1,toLex (-e,-m)))
  | .zero _ => some (toLex (0,toLex (0,0)))
  | .finite .positive m e _ => some (toLex (1,toLex (e,m)))
  | .infinity .positive => some (toLex (2,toLex (0,0)))

theorem compare_neg_neg (x y : ℤ) : compare (-x) (-y)=(compare x y).swap := by
  rcases lt_trichotomy x y with h | rfl | h
  · rw [compare_lt_iff_lt.mpr h,compare_gt_iff_gt.mpr (neg_lt_neg h)]
    rfl
  · rw [compare_eq_iff_eq.mpr rfl,compare_eq_iff_eq.mpr rfl]
    rfl
  · rw [compare_gt_iff_gt.mpr h,compare_lt_iff_lt.mpr (neg_lt_neg h)]
    rfl

theorem compare_natCast (m n : ℕ) : compare (m : ℤ) n=compare m n := by
  rcases lt_trichotomy m n with h | rfl | h
  · rw [compare_lt_iff_lt.mpr h,compare_lt_iff_lt.mpr (Int.ofNat_lt.mpr h)]
  · rw [compare_eq_iff_eq.mpr rfl,compare_eq_iff_eq.mpr rfl]
  · rw [compare_gt_iff_gt.mpr h,compare_gt_iff_gt.mpr (Int.ofNat_lt.mpr h)]

theorem compare_toLex {α : Type*} [LinearOrder α] (x y : ℤ) (a b : α) :
    compare (toLex (x,a)) (toLex (y,b))=(compare x y).then (compare a b) := by
  simp only [Prod.Lex.compare_def,compareLex,compareOn,ofLex_toLex]

theorem compare_eq (a b : UnpackedFloat) :
    a.compare b=(place a).bind fun x => (place b).map fun y => compare x y := by
  rcases a with (_ | _) | _ | _ | ⟨_ | _,m,e,_⟩ <;>
    rcases b with (_ | _) | _ | _ | ⟨_ | _,m',e',_⟩
  case finite.negative.finite.negative =>
    simp only [UnpackedFloat.compare,place,Option.bind_some,Option.map_some]
    rw [compare_toLex,compare_toLex,compare_neg_neg e,compare_neg_neg m,compare_natCast,
      Ordering.swap_then]
    rfl
  case finite.positive.finite.positive =>
    simp only [UnpackedFloat.compare,place,Option.bind_some,Option.map_some]
    rw [compare_toLex,compare_toLex,compare_natCast]
    rfl
  all_goals rfl

theorem le_iff {a b : Float32} :
    a ≤ b ↔ ∃ x∈place a.toModel.unpack,∃ y∈place b.toModel.unpack,x ≤ y := by
  have hle : a ≤ b ↔ (a.toModel.unpack.compare b.toModel.unpack).any (·.isLE)=true :=
    decide_eq_true_iff
  rw [hle,compare_eq]
  cases place a.toModel.unpack <;> cases place b.toModel.unpack <;>
    simp [← compare_le_iff_le,Ordering.isLE_iff_ne_gt]

theorem lt_iff {a b : Float32} :
    a < b ↔ ∃ x∈place a.toModel.unpack,∃ y∈place b.toModel.unpack,x < y := by
  have hlt : a < b ↔ (a.toModel.unpack.compare b.toModel.unpack==some .lt)=true :=
    decide_eq_true_iff
  rw [hlt,compare_eq]
  cases place a.toModel.unpack <;> cases place b.toModel.unpack <;>
    simp [compare_lt_iff_lt]

instance : FloatOrder Float32 where
  trans hab hbc := by
    obtain ⟨x,hx,y,hy,hxy⟩ := le_iff.mp hab
    obtain ⟨y',hy',z,hz,hyz⟩ := le_iff.mp hbc
    obtain rfl := Option.mem_unique hy hy'
    exact le_iff.mpr ⟨x,hx,z,hz,hxy.trans hyz⟩
  total ha hb := by
    obtain ⟨x,hx,-⟩ := le_iff.mp ha
    obtain ⟨y,hy,-⟩ := le_iff.mp hb
    rcases le_total x y with hxy | hyx
    · exact .inl (le_iff.mpr ⟨x,hx,y,hy,hxy⟩)
    · exact .inr (le_iff.mpr ⟨y,hy,x,hx,hyx⟩)
  lt_iff := by
    intro a b
    constructor
    · intro hab
      obtain ⟨x,hx,y,hy,hxy⟩ := lt_iff.mp hab
      refine ⟨le_iff.mpr ⟨x,hx,y,hy,hxy.le⟩,fun hba => ?_⟩
      obtain ⟨y',hy',x',hx',hyx⟩ := le_iff.mp hba
      obtain rfl := Option.mem_unique hx hx'
      obtain rfl := Option.mem_unique hy hy'
      exact hyx.not_gt hxy
    · rintro ⟨hab,hba⟩
      obtain ⟨x,hx,y,hy,-⟩ := le_iff.mp hab
      exact lt_iff.mpr ⟨x,hx,y,hy,not_le.mp fun hyx => hba (le_iff.mpr ⟨y,hy,x,hx,hyx⟩)⟩

end Projectnelth.SinglePrecision
