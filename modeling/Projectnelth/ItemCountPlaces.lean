import Mathlib
import Projectnelth.ItemCountModel

/-!
# What lies in a place

Destroying an item empties its place, and the places of the bag that it is; changing a count
changes one place.
-/

namespace Projectnelth.ItemCountModel.Inventory

variable {inv : Inventory} {p q : Pos} {i j b : ℕ} {item : Item}

theorem bag_of_none (h : inv.m_items b=none) : inv.bag b=[] := by
  unfold bag
  rw [h,Option.isSome_none,Bool.and_false]
  rfl

theorem get_inBag : inv.GetItemByPos (.inBag b j)=(inv.bag b)[j]?.join := rfl

theorem bag_DestroyItem_slot :
    (inv.DestroyItem (.slot i)).bag b=if b=i then [] else inv.bag b := by
  by_cases hb : b=i
  · rw [if_pos hb,hb]
    exact bag_of_none (Function.update_self ..)
  · rw [if_neg hb]
    simp only [bag,DestroyItem,Function.update_of_ne hb]

theorem bag_DestroyItem_inBag :
    (inv.DestroyItem (.inBag i j)).bag b=if b=i then (inv.bag b).set j none else inv.bag b := by
  by_cases hb : b=i
  · rw [if_pos hb,hb]
    simp only [bag,DestroyItem,Function.update_self]
    split_ifs <;> rfl
  · rw [if_neg hb]
    simp only [bag,DestroyItem,Function.update_of_ne hb]

theorem bag_SetCount_slot (value : ℕ) : (inv.SetCount value (.slot i)).bag b=inv.bag b := by
  by_cases hb : b=i
  · rw [hb]
    simp only [bag,SetCount,Function.update_self,Option.isSome_map]
  · simp only [bag,SetCount,Function.update_of_ne hb]

theorem bag_SetCount_inBag (value : ℕ) :
    (inv.SetCount value (.inBag i j)).bag b=
      if b=i then (inv.bag b).modify j (Option.map fun item => { item with count := value })
      else inv.bag b := by
  by_cases hb : b=i
  · rw [if_pos hb,hb]
    simp only [bag,SetCount,Function.update_self]
    split_ifs
    · rfl
    · cases j <;> rfl
  · rw [if_neg hb]
    simp only [bag,SetCount,Function.update_of_ne hb]

theorem get_DestroyItem_self : (inv.DestroyItem p).GetItemByPos p=none := by
  cases p with
  | slot i =>
    unfold GetItemByPos DestroyItem
    dsimp only
    rw [Function.update_self,ite_self]
  | inBag b j =>
    rw [get_inBag,bag_DestroyItem_inBag,if_pos rfl,List.getElem?_set_self']
    cases (inv.bag b)[j]? <;> rfl

/-- A bag is destroyed with what it contains. -/
theorem get_DestroyItem_bag : (inv.DestroyItem (.slot b)).GetItemByPos (.inBag b j)=none := by
  rw [get_inBag,bag_DestroyItem_slot,if_pos rfl]
  rfl

/-- The other places are as before. -/
theorem get_DestroyItem_of_ne (hne : q≠p) (hbag : ∀ b j, p=.slot b → q≠.inBag b j) :
    (inv.DestroyItem p).GetItemByPos q=inv.GetItemByPos q := by
  cases p with
  | slot i =>
    cases q with
    | slot i' =>
      have hi : i'≠i := fun h => hne (congrArg Pos.slot h)
      unfold GetItemByPos DestroyItem
      dsimp only
      rw [Function.update_of_ne hi]
    | inBag b j =>
      have hb : b≠i := fun h => hbag i j rfl (congrArg (Pos.inBag · j) h)
      rw [get_inBag,bag_DestroyItem_slot,if_neg hb,get_inBag]
  | inBag b j =>
    cases q with
    | slot i' => rfl
    | inBag b' j' =>
      rw [get_inBag,bag_DestroyItem_inBag,get_inBag]
      split_ifs with hb
      · have hj : j≠j' := fun h => hne (by rw [hb,h])
        rw [List.getElem?_set_ne hj]
      · rfl

/-- What lies in a place after its count was changed. -/
theorem get_SetCount_self (value : ℕ) :
    (inv.SetCount value p).GetItemByPos p=
      (inv.GetItemByPos p).map fun item => { item with count := value } := by
  cases p with
  | slot i =>
    unfold GetItemByPos SetCount
    dsimp only
    rw [Function.update_self]
    split_ifs <;> rfl
  | inBag b j =>
    rw [get_inBag,bag_SetCount_inBag,if_pos rfl,List.getElem?_modify,get_inBag]
    cases (inv.bag b)[j]? with
    | none => rfl
    | some o => exact congrArg Option.join (congrArg some (if_pos rfl))

theorem get_SetCount_of_ne (value : ℕ) (hne : q≠p) :
    (inv.SetCount value p).GetItemByPos q=inv.GetItemByPos q := by
  cases p with
  | slot i =>
    cases q with
    | slot i' =>
      have hi : i'≠i := fun h => hne (congrArg Pos.slot h)
      unfold GetItemByPos SetCount
      dsimp only
      rw [Function.update_of_ne hi]
    | inBag b j => rw [get_inBag,bag_SetCount_slot,get_inBag]
  | inBag b j =>
    cases q with
    | slot i' => rfl
    | inBag b' j' =>
      rw [get_inBag,bag_SetCount_inBag,get_inBag]
      split_ifs with hb
      · have hj : j≠j' := fun h => hne (by rw [hb,h])
        rw [List.getElem?_modify]
        cases (inv.bag b')[j']? with
        | none => rfl
        | some o => exact congrArg Option.join (congrArg some (if_neg hj))
      · rfl

/-- An empty place stays empty when an item is destroyed. -/
theorem get_DestroyItem_none (h : inv.GetItemByPos q=none) :
    (inv.DestroyItem p).GetItemByPos q=none := by
  by_cases hne : q=p
  · rw [hne]
    exact get_DestroyItem_self
  · by_cases hbag : ∀ b j, p=.slot b → q≠.inBag b j
    · rw [get_DestroyItem_of_ne hne hbag,h]
    · push Not at hbag
      obtain ⟨b,j,rfl,rfl⟩ := hbag
      exact get_DestroyItem_bag

theorem get_SetCount_none (value : ℕ) (h : inv.GetItemByPos q=none) :
    (inv.SetCount value p).GetItemByPos q=none := by
  by_cases hne : q=p
  · rw [← hne,get_SetCount_self,h]
    rfl
  · rw [get_SetCount_of_ne value hne,h]

/-- A bag is not empty where something lies in one of its places. -/
theorem IsNotEmptyBag_iff :
    inv.IsNotEmptyBag b=true ↔ ∃ j, (inv.GetItemByPos (.inBag b j)).isSome := by
  unfold IsNotEmptyBag GetItemByPos
  dsimp only
  rw [List.any_eq_true]
  constructor
  · rintro ⟨o,ho,hsome⟩
    obtain ⟨j,hj,heq⟩ := List.getElem_of_mem ho
    refine ⟨j,?_⟩
    rw [List.getElem?_eq_getElem hj,heq]
    exact hsome
  · rintro ⟨j,hj⟩
    cases hget : (inv.bag b)[j]? with
    | none =>
      rw [hget] at hj
      cases hj
    | some o =>
      rw [hget] at hj
      exact ⟨o,List.mem_of_getElem? hget,hj⟩

end Projectnelth.ItemCountModel.Inventory
