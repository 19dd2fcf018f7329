import Mathlib

/-!
# Arrays of fixed size

The sizes of the arrays are not zero, so that their indices have literals.
-/

namespace Projectnelth.ArraySizes

instance neZero_three : NeZero 3 := ⟨by decide⟩

instance neZero_four : NeZero 4 := ⟨by decide⟩

instance neZero_five : NeZero 5 := ⟨by decide⟩

instance neZero_seven : NeZero 7 := ⟨by decide⟩

instance neZero_eight : NeZero 8 := ⟨by decide⟩

instance neZero_nine : NeZero 9 := ⟨by decide⟩

instance neZero_sixteen : NeZero 16 := ⟨by decide⟩

end Projectnelth.ArraySizes
