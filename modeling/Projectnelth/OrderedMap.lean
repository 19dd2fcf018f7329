import Mathlib
import Projectnelth.KeyedList

/-!
# A map that is gone through in the order of its keys

The entries are a list. An entry is written in the place of the one of its key, or else before
the first one with a greater key. What is found after that does not depend on the order.
-/

namespace Projectnelth.OrderedMap

open KeyedList

variable {κ β : Type*} [LinearOrder κ] {k k' : κ} {b : β} {l : List (κ×β)}

/-- The entry of a key is written. -/
def write (k : κ) (b : β) : List (κ×β) → List (κ×β)
  | [] => [(k,b)]
  | x::l =>
    if k < x.1 then (k,b)::x::l
    else if k=x.1 then (k,b)::l
    else x::write k b l

/-- The value of a key. -/
def find (k : κ) (l : List (κ×β)) : Option β := (lookup Prod.fst k l).map Prod.snd

/-- The value of a key, where a value that is not there is made. -/
def index [Inhabited β] (k : κ) (l : List (κ×β)) : β := (find k l).getD default

theorem find_nil (k : κ) : find k ([] : List (κ×β))=none := rfl

theorem find_cons (k : κ) (x : κ×β) (l : List (κ×β)) :
    find k (x::l)=if x.1=k then some x.2 else find k l := by
  unfold find lookup
  by_cases hx : x.1=k
  · rw [if_pos hx,List.find?_cons_of_pos (by simpa using hx)]
    rfl
  · rw [if_neg hx,List.find?_cons_of_neg (by simpa using hx)]

/-- What is found after an entry was written. -/
theorem find_write (k k' : κ) (b : β) (l : List (κ×β)) :
    find k' (write k b l)=if k=k' then some b else find k' l := by
  induction l with
  | nil => exact find_cons k' (k,b) []
  | cons x l ih =>
    unfold write
    by_cases hlt : k < x.1
    · rw [if_pos hlt,find_cons]
    rw [if_neg hlt]
    by_cases heq : k=x.1
    · rw [if_pos heq,find_cons,find_cons,← heq]
      split_ifs <;> rfl
    rw [if_neg heq,find_cons,ih,find_cons]
    by_cases hk : k=k'
    · rw [if_pos hk,if_neg (fun hx => heq (hk.trans hx.symm)),if_pos hk]
    · rw [if_neg hk,if_neg hk]

/-- What is found after an entry was taken away. -/
theorem find_remove (k k' : κ) (l : List (κ×β)) :
    find k' (remove Prod.fst k l)=if k'=k then none else find k' l := by
  unfold find
  rw [lookup_remove]
  split_ifs <;> rfl

/-- An entry that is first is found. -/
theorem find_of_head {x : κ×β} (h : l.head?=some x) : find x.1 l=some x.2 := by
  cases l with
  | nil => cases h
  | cons y l =>
    rw [find_cons,Option.some.inj h,if_pos rfl]

/-- Something is found in a map that is not empty. -/
theorem ne_nil_of_get (h : find k l=some b) : l≠[] := fun hnil => by
  rw [hnil] at h
  cases h

/-- The keys stand in their order. -/
def Sorted (l : List (κ×β)) : Prop := l.Pairwise fun x y => x.1 < y.1

/-- What is in a map after a write is the new entry or was there before. -/
theorem mem_of_mem_write {x : κ×β} (h : x∈write k b l) : x=(k,b) ∨ x∈l := by
  induction l with
  | nil => exact Or.inl (List.mem_singleton.mp h)
  | cons y l ih =>
    unfold write at h
    split_ifs at h
    · exact List.mem_cons.mp h
    · exact (List.mem_cons.mp h).imp_right (List.mem_cons_of_mem y)
    · rcases List.mem_cons.mp h with rfl | hx
      · exact Or.inr List.mem_cons_self
      · exact (ih hx).imp_right (List.mem_cons_of_mem y)

/-- A write keeps the keys in their order. -/
theorem Sorted.write (h : Sorted l) (k : κ) (b : β) : Sorted (write k b l) := by
  induction l with
  | nil => exact List.pairwise_singleton _ _
  | cons y l ih =>
    obtain ⟨hy,hl⟩ := List.pairwise_cons.mp h
    unfold OrderedMap.write
    by_cases hlt : k < y.1
    · rw [if_pos hlt]
      refine List.pairwise_cons.mpr ⟨fun x hx => ?_,h⟩
      rcases List.mem_cons.mp hx with rfl | hx
      · exact hlt
      · exact hlt.trans (hy x hx)
    · rw [if_neg hlt]
      by_cases heq : k=y.1
      · rw [if_pos heq,heq]
        exact List.pairwise_cons.mpr ⟨hy,hl⟩
      rw [if_neg heq]
      refine List.pairwise_cons.mpr ⟨fun x hx => ?_,ih hl⟩
      rcases mem_of_mem_write hx with rfl | hx
      · exact lt_of_le_of_ne (not_lt.mp hlt) (Ne.symm heq)
      · exact hy x hx

/-- In a map in order every entry is found. -/
theorem Sorted.find_of_mem (h : Sorted l) {x : κ×β} (hx : x∈l) : find x.1 l=some x.2 := by
  induction l with
  | nil => cases hx
  | cons y l ih =>
    obtain ⟨hy,hl⟩ := List.pairwise_cons.mp h
    rw [find_cons]
    rcases List.mem_cons.mp hx with rfl | hx
    · exact if_pos rfl
    · rw [if_neg (hy x hx).ne]
      exact ih hl hx

/-- What is found stands in the map. -/
theorem mem_of_find (h : find k l=some b) : (k,b)∈l := by
  unfold find at h
  obtain ⟨x,hx,rfl⟩ := Option.map_eq_some_iff.mp h
  rw [← key_of_lookup hx]
  exact mem_of_lookup hx

end Projectnelth.OrderedMap
