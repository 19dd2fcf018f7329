import Mathlib

/-!
# Flags in a byte

Setting or clearing a flag is seen through a mask only where the two meet.
-/

namespace Projectnelth.FlagMasks

variable (flags : UInt8) {flag flag' : UInt8}

/-- A flag that is set is not seen by another mask. -/
theorem or_and_of_disjoint (h : flag &&& flag'=0) :
    (flags ||| flag) &&& flag'=flags &&& flag' := by
  have hdist : (flags ||| flag) &&& flag'=(flags &&& flag') ||| (flag &&& flag') := by
    rw [←UInt8.toBitVec_inj]
    ext i
    simp only [UInt8.toBitVec_and,UInt8.toBitVec_or,BitVec.getElem_and,BitVec.getElem_or]
    exact Bool.and_or_distrib_right _ _ _
  rw [hdist,h,UInt8.or_zero]

theorem or_and_self (flag : UInt8) : (flags ||| flag) &&& flag=flag := by
  rw [←UInt8.toBitVec_inj]
  ext i hi
  simp only [UInt8.toBitVec_and,UInt8.toBitVec_or,BitVec.getElem_and,BitVec.getElem_or]
  exact Bool.and_eq_right_iff_imp.mpr fun h => by rw [h,Bool.or_true]

theorem clear_and_self (flag : UInt8) : flags &&& ~~~flag &&& flag=0 := by
  rw [UInt8.and_assoc,UInt8.not_and_self,UInt8.and_zero]

/-- A flag that is cleared is not seen by another mask. -/
theorem clear_and_of_disjoint (h : flag &&& flag'=0) :
    flags &&& ~~~flag &&& flag'=flags &&& flag' := by
  rw [←UInt8.toBitVec_inj] at h ⊢
  ext i hi
  have hbit := congrArg (fun v : BitVec 8 => v[i]) h
  simp at hbit ⊢
  grind

end Projectnelth.FlagMasks
