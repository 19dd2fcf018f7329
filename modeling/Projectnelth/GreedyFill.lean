import Mathlib

/-!
# Filling a room in order

Items are taken in the order in which they come, each one if it still fits: into a room of a
size, or to the ones taken before.
-/

namespace Projectnelth.GreedyFill

variable {β : Type*}

/-- The items that are taken. -/
def fill (size : β → ℕ) : ℕ → List β → List β
  | _,[] => []
  | room,x::xs => if size x ≤ room then x::fill size (room-size x) xs else fill size room xs

/-- How much of the room the items take. -/
def filled (size : β → ℕ) (room : ℕ) (xs : List β) : ℕ := ((fill size room xs).map size).sum

/-- Items are left out, and nothing else happens. -/
theorem fill_sublist (size : β → ℕ) (room : ℕ) (xs : List β) : (fill size room xs).Sublist xs := by
  induction xs generalizing room with
  | nil => exact List.Sublist.refl _
  | cons x xs ih =>
    unfold fill
    split
    · exact (ih _).cons_cons x
    · exact (ih _).cons x

/-- The items fit into the room together. -/
theorem filled_le (size : β → ℕ) (room : ℕ) (xs : List β) : filled size room xs ≤ room := by
  unfold filled
  induction xs generalizing room with
  | nil => exact Nat.zero_le room
  | cons x xs ih =>
    unfold fill
    split
    · rw [List.map_cons,List.sum_cons]
      have := ih (room-size x)
      omega
    · exact ih room

/-- Items of size one fill a room that is not too large for them. -/
theorem filled_ones {size : β → ℕ} {room : ℕ} {xs : List β} (hsize : ∀ x∈xs,size x=1)
    (hroom : room ≤ xs.length) : filled size room xs=room := by
  unfold filled
  induction xs generalizing room with
  | nil => exact (Nat.le_zero.mp hroom).symm
  | cons x xs ih =>
    have hx := hsize x List.mem_cons_self
    have hxs : ∀ y∈xs,size y=1 := fun y hy => hsize y (List.mem_cons_of_mem x hy)
    rw [List.length_cons] at hroom
    unfold fill
    split
    · rw [List.map_cons,List.sum_cons,ih hxs (by omega)]
      omega
    · have := ih hxs (by omega : room ≤ xs.length)
      omega

/-- Every item is taken that goes with the ones taken before. -/
def greedy (p : List β → Prop) [DecidablePred p] : List β → List β → List β
  | taken,[] => taken
  | taken,x::xs => if p (taken++[x]) then greedy p (taken++[x]) xs else greedy p taken xs

/-- Where no item goes with them it stays at the ones taken before. -/
theorem greedy_eq_self {p : List β → Prop} [DecidablePred p] {taken xs : List β}
    (h : ∀ x∈xs,¬p (taken++[x])) : greedy p taken xs=taken := by
  induction xs with
  | nil => rfl
  | cons x xs ih =>
    rw [greedy,if_neg (h x List.mem_cons_self)]
    exact ih fun y hy => h y (List.mem_cons_of_mem x hy)

end Projectnelth.GreedyFill
