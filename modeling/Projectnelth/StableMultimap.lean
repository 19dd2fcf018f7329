import Mathlib

/-!
# A multimap as a list in key order

`insert` puts a new element behind every element whose key is not larger,
as a C++11 ordered multimap does with equal keys. The list then stays in
key order, equal keys stay in the order of their insertion, and insertion
only adds. The key is any function into a linear order.
-/

namespace Projectnelth.StableMultimap

variable {β κ : Type*} [LinearOrder κ]

/-- Insertion behind every element of a key at most the new one. -/
def insert (key : β → κ) (x : β) : List β → List β
  | [] => [x]
  | y::ys => if key y ≤ key x then y::insert key x ys else x::y::ys

/-- Insertion of a range, one element after the other. -/
def insertAll (key : β → κ) : List β → List β → List β
  | [],ys => ys
  | x::xs,ys => insertAll key xs (insert key x ys)

/-- Elements in non-decreasing key order. -/
def Ordered (key : β → κ) (xs : List β) : Prop := xs.Pairwise fun a b => key a ≤ key b

/-- Insertion adds exactly the new element. -/
theorem insert_perm (key : β → κ) (x : β) (xs : List β) : (insert key x xs).Perm (x::xs) := by
  induction xs with
  | nil => exact List.Perm.refl _
  | cons y ys ih =>
    unfold insert
    split
    · exact (ih.cons y).trans (List.Perm.swap x y ys)
    · exact List.Perm.refl _

theorem mem_insert {key : β → κ} {x y : β} {xs : List β} :
    y∈insert key x xs ↔ y=x ∨ y∈xs := by
  rw [(insert_perm key x xs).mem_iff,List.mem_cons]

/-- Insertion of a range adds exactly the range. -/
theorem insertAll_perm (key : β → κ) (xs ys : List β) : (insertAll key xs ys).Perm (xs++ys) := by
  induction xs generalizing ys with
  | nil => exact List.Perm.refl _
  | cons x xs ih =>
    have hx : (xs++insert key x ys).Perm (xs++x::ys) :=
      (insert_perm key x ys).append_left xs
    exact (ih _).trans (hx.trans List.perm_middle)

theorem mem_insertAll {key : β → κ} {xs ys : List β} {y : β} :
    y∈insertAll key xs ys ↔ y∈xs ∨ y∈ys := by
  rw [(insertAll_perm key xs ys).mem_iff,List.mem_append]

/-- A relation that keys refine stays pairwise true under insertion, when the
new element stands rightly behind the smaller keys and before the larger ones. -/
theorem pairwise_insert {key : β → κ} {R : β → β → Prop} {x : β} {xs : List β}
    (ho : Ordered key xs) (hp : xs.Pairwise R)
    (hbefore : ∀ y∈xs, key y ≤ key x → R y x) (hafter : ∀ y∈xs, key x < key y → R x y) :
    (insert key x xs).Pairwise R := by
  induction xs with
  | nil => exact List.pairwise_singleton _ _
  | cons y ys ih =>
    obtain ⟨hy,hys⟩ := List.pairwise_cons.mp hp
    obtain ⟨hoy,hoys⟩ := List.pairwise_cons.mp ho
    unfold insert
    split
    · rename_i hle
      refine List.pairwise_cons.mpr ⟨?_,ih hoys hys
        (fun z hz => hbefore z (List.mem_cons_of_mem y hz))
        (fun z hz => hafter z (List.mem_cons_of_mem y hz))⟩
      intro z hz
      rcases mem_insert.mp hz with rfl | hz
      · exact hbefore y List.mem_cons_self hle
      · exact hy z hz
    · rename_i hlt
      refine List.pairwise_cons.mpr ⟨?_,hp⟩
      intro z hz
      rcases List.mem_cons.mp hz with rfl | hz
      · exact hafter z List.mem_cons_self (lt_of_not_ge hlt)
      · exact hafter z (List.mem_cons_of_mem y hz) ((lt_of_not_ge hlt).trans_le (hoy z hz))

theorem ordered_insert {key : β → κ} {x : β} {xs : List β} (ho : Ordered key xs) :
    Ordered key (insert key x xs) :=
  pairwise_insert ho ho (fun _ _ h => h) (fun _ _ h => h.le)

theorem ordered_insertAll {key : β → κ} {xs ys : List β} (ho : Ordered key ys) :
    Ordered key (insertAll key xs ys) := by
  induction xs generalizing ys with
  | nil => exact ho
  | cons x xs ih => exact ih (ordered_insert ho)

/-- A pairwise relation under insertion of a range whose elements are related
in their own order and rightly placed against the old elements. -/
theorem pairwise_insertAll {key : β → κ} {R : β → β → Prop} {xs ys : List β}
    (ho : Ordered key ys) (hp : ys.Pairwise R)
    (hin : xs.Pairwise fun a b => (key a ≤ key b → R a b) ∧ (key b < key a → R b a))
    (hbefore : ∀ x∈xs, ∀ y∈ys, key y ≤ key x → R y x)
    (hafter : ∀ x∈xs, ∀ y∈ys, key x < key y → R x y) :
    (insertAll key xs ys).Pairwise R := by
  induction xs generalizing ys with
  | nil => exact hp
  | cons x xs ih =>
    obtain ⟨hx,hxs⟩ := List.pairwise_cons.mp hin
    refine ih (ordered_insert ho)
      (pairwise_insert ho hp (hbefore x List.mem_cons_self) (hafter x List.mem_cons_self)) hxs ?_ ?_
    · intro z hz y hy
      rcases mem_insert.mp hy with rfl | hy
      · exact (hx z hz).1
      · exact hbefore z (List.mem_cons_of_mem x hz) y hy
    · intro z hz y hy
      rcases mem_insert.mp hy with rfl | hy
      · exact (hx z hz).2
      · exact hafter z (List.mem_cons_of_mem x hz) y hy

theorem Ordered.head_le {key : β → κ} {x : β} {xs : List β} (ho : Ordered key (x::xs)) :
    ∀ y∈x::xs, key x ≤ key y := by
  intro y hy
  rcases List.mem_cons.mp hy with rfl | hy
  · exact le_rfl
  · exact (List.pairwise_cons.mp ho).1 y hy

end Projectnelth.StableMultimap
