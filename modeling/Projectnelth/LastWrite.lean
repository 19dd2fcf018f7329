import Mathlib

/-!
# Writes to a table one after the other

Write number `y` puts `value y` in the place `key y`. A place holds what the last write to it put
there, or what it held before all of them.
-/

namespace Projectnelth.LastWrite

variable {α : Type} (key : ℕ → ℕ) (value : ℕ → α)

/-- The last of the first writes that is to a place. -/
def last (n i : ℕ) : Option ℕ := ((List.range n).filter fun y => key y=i).getLast?

theorem last_succ (n i : ℕ) :
    last key (n+1) i=if key n=i then some n else last key n i := by
  unfold last
  rw [List.range_succ,List.filter_append]
  by_cases h : key n=i
  · simp only [h,decide_true,List.filter_cons_of_pos,List.filter_nil,if_true,
      List.getLast?_append,List.getLast?_singleton,Option.some_or]
  · simp only [h,decide_false,Bool.false_eq_true,not_false_eq_true,List.filter_cons_of_neg,
      List.filter_nil,List.append_nil,if_false]

/-- Where each write has a place of its own, that is the last one to it. -/
theorem last_self (n i : ℕ) : last (fun y => y) n i=if i < n then some i else none := by
  induction n with
  | zero => rfl
  | succ n ih =>
    rw [last_succ,ih]
    by_cases h : n=i
    · rw [if_pos h,if_pos (by omega),h]
    rw [if_neg h]
    by_cases hlt : i < n
    · rw [if_pos hlt,if_pos (by omega)]
    · rw [if_neg hlt,if_neg (by omega)]

/-- The table after the first writes. -/
def writes (n : ℕ) (t : List α) : List α :=
  (List.range n).foldl (fun t y => t.set (key y) (value y)) t

theorem writes_succ (n : ℕ) (t : List α) :
    writes key value (n+1) t=(writes key value n t).set (key n) (value n) := by
  unfold writes
  rw [List.range_succ,List.foldl_append]
  rfl

theorem length_writes (n : ℕ) (t : List α) : (writes key value n t).length=t.length := by
  induction n with
  | zero => rfl
  | succ n ih => rw [writes_succ,List.length_set,ih]

/-- What a place holds. -/
theorem getElem?_writes (n i : ℕ) (t : List α) (hi : i < t.length) :
    (writes key value n t)[i]?=((last key n i).map value).or t[i]? := by
  induction n with
  | zero => rfl
  | succ n ih =>
    have hlt : i < (writes key value n t).length := by
      rw [length_writes]
      exact hi
    rw [writes_succ,last_succ,List.getElem?_set]
    by_cases h : key n=i
    · rw [if_pos h,if_pos h,if_pos (by rw [h]; exact hlt)]
      rfl
    · rw [if_neg h,if_neg h,ih]

/-- The whole of a table that held one value. -/
theorem writes_replicate (n len : ℕ) (u : α) :
    writes key value n (List.replicate len u)=
      (List.range len).map fun i => ((last key n i).map value).getD u := by
  apply List.ext_getElem?
  intro i
  by_cases h : i < len
  · have hi : i < (List.replicate len u).length := by
      rw [List.length_replicate]
      exact h
    rw [getElem?_writes key value n i _ hi,List.getElem?_map,List.getElem?_range h,
      List.getElem?_replicate,if_pos h,Option.map_some]
    cases last key n i with
    | none => rfl
    | some y => rfl
  · rw [List.getElem?_eq_none (by rw [length_writes,List.length_replicate]; omega),
      List.getElem?_eq_none (by rw [List.length_map,List.length_range]; omega)]

end Projectnelth.LastWrite
