import Mathlib

/-!
# Taking turns

The candidates stand in a row, and the turn goes round: after the current one it comes to those
behind, then to those before, and last to the current one again. The next one is the
first in this order that is fit. While the fit ones stay the same, as many turns as there
are of them take each exactly once.
-/

namespace Projectnelth.RoundRobin

variable {α : Type*} [DecidableEq α] {slots fit rest : List α} {p : α → Bool} {current next : α}

/-- The order in which the turn goes round from the current one. -/
def turnOrder (slots : List α) (current : α) : List α :=
  if current∈slots then slots.rotate (slots.idxOf current+1) else slots

/-- The first fit one behind the current one. -/
def nextTurn (p : α → Bool) (slots : List α) (current : α) : Option α :=
  (turnOrder slots current).find? p

/-- Those who come on in some turns; it ends early if nobody is fit. -/
def turns (p : α → Bool) (slots : List α) : ℕ → α → List α
  | 0,_ => []
  | n+1,current =>
    match nextTurn p slots current with
    | none => []
    | some next => next::turns p slots n next

theorem turnOrder_perm (slots : List α) (current : α) : (turnOrder slots current).Perm slots := by
  unfold turnOrder
  split_ifs
  · exact List.rotate_perm slots _
  · exact List.Perm.refl slots

theorem mem_turnOrder : next∈turnOrder slots current ↔ next∈slots :=
  (turnOrder_perm slots current).mem_iff

/-- Nobody comes on exactly if nobody is fit. -/
theorem nextTurn_eq_none : nextTurn p slots current=none ↔ ∀ x∈slots,p x=false := by
  rw [nextTurn,List.find?_eq_none]
  refine forall_congr' fun x => ?_
  rw [mem_turnOrder,Bool.not_eq_true]

theorem nextTurn_mem (h : nextTurn p slots current=some next) : next∈slots.filter p := by
  have hmem := List.mem_of_find?_eq_some h
  exact List.mem_filter.mpr ⟨mem_turnOrder.mp hmem,List.find?_some h⟩

theorem turnOrder_split {before behind : List α} (h : current∉before) :
    turnOrder (before++current::behind) current=behind++before++[current] := by
  rw [turnOrder,if_pos (List.mem_append_right _ List.mem_cons_self),List.idxOf_append_of_notMem h,
    List.idxOf_cons_self,Nat.add_zero]
  have hlength : before.length+1=(before++[current]).length := by
    rw [List.length_append,List.length_singleton]
  rw [hlength,show before++current::behind=(before++[current])++behind by simp,
    List.rotate_append_length_eq,List.append_assoc]

/-- The fit ones come on in their own order, when the current one is fit. -/
theorem filter_turnOrder (h : current∈slots.filter p) :
    (turnOrder slots current).filter p=turnOrder (slots.filter p) current := by
  obtain ⟨hmem,hfit⟩ := List.mem_filter.mp h
  obtain ⟨before,behind,rfl,hfirst⟩ := List.eq_append_cons_of_mem hmem
  have hnot : current∉before.filter p := fun hin => hfirst (List.mem_filter.mp hin).1
  rw [turnOrder_split hfirst,List.filter_append,List.filter_append,List.filter_append,
    List.filter_cons_of_pos hfit,List.filter_cons_of_pos hfit,List.filter_nil,turnOrder_split hnot]

/-- When the turn moves on, the order moves with it. -/
theorem turnOrder_next (hnodup : fit.Nodup) (h : turnOrder fit current=next::rest) :
    turnOrder fit next=rest++[next] := by
  by_cases hmem : current∈fit
  · obtain ⟨before,behind,rfl,hfirst⟩ := List.eq_append_cons_of_mem hmem
    rw [turnOrder_split hfirst] at h
    rcases behind with _ | ⟨first,behind⟩
    · rcases before with _ | ⟨first,before⟩
      · obtain ⟨rfl,rfl⟩ := List.cons.inj h
        exact @turnOrder_split _ _ current [] [] List.not_mem_nil
      obtain ⟨rfl,rfl⟩ := List.cons.inj h
      rw [List.cons_append,← List.nil_append (first::(before++[current]))]
      rw [turnOrder_split List.not_mem_nil,List.append_nil]
      rfl
    · obtain ⟨rfl,rfl⟩ := List.cons.inj h
      have hshift : before++current::first::behind=(before++[current])++first::behind := by simp
      rw [hshift] at hnodup ⊢
      have hnot : first∉before++[current] := fun hin =>
        List.disjoint_of_nodup_append hnodup hin List.mem_cons_self
      rw [turnOrder_split hnot]
      simp only [List.append_eq,List.append_assoc]
  · rw [turnOrder,if_neg hmem] at h
    subst h
    rw [← List.nil_append (next::rest),turnOrder_split List.not_mem_nil,List.append_nil]

/-- From a fit one the turns follow the order; by induction on their number. -/
theorem turns_eq_take (hnodup : slots.Nodup) {n : ℕ} (hn : n ≤ (slots.filter p).length)
    (h : current∈slots.filter p) :
    turns p slots n current=(turnOrder (slots.filter p) current).take n := by
  induction n generalizing current with
  | zero => rw [List.take_zero,turns]
  | succ n ih =>
    have hlength := (turnOrder_perm (slots.filter p) current).length_eq
    rcases horder : turnOrder (slots.filter p) current with _ | ⟨next,rest⟩
    · rw [horder,List.length_nil] at hlength
      omega
    have hnext : nextTurn p slots current=some next := by
      rw [nextTurn,← List.head?_filter,filter_turnOrder h,horder]
      rfl
    have hrest := turnOrder_next (hnodup.filter p) horder
    rw [horder,List.length_cons] at hlength
    rw [turns,hnext]
    dsimp only
    rw [ih (by omega) (nextTurn_mem hnext),hrest,List.take_succ_cons,
      List.take_append_of_le_length (by omega)]

/-- As many turns as there are fit ones take each of them exactly once. -/
theorem turns_perm (hnodup : slots.Nodup) (current : α) :
    (turns p slots (slots.filter p).length current).Perm (slots.filter p) := by
  cases hlength : (slots.filter p).length with
  | zero =>
    rw [List.eq_nil_of_length_eq_zero hlength,turns]
  | succ n =>
    cases hnext : nextTurn p slots current with
    | none =>
      rw [nextTurn_eq_none] at hnext
      have hnil : slots.filter p=[] :=
        List.filter_eq_nil_iff.mpr fun x hx => by rw [hnext x hx]; exact Bool.false_ne_true
      rw [hnil] at hlength
      cases hlength
    | some next =>
      have hmem := nextTurn_mem hnext
      obtain ⟨before,behind,hsplit,hfirst⟩ := List.eq_append_cons_of_mem hmem
      have horder : turnOrder (slots.filter p) next=behind++before++[next] := by
        rw [hsplit,turnOrder_split hfirst]
      have hperm := turnOrder_perm (slots.filter p) next
      have hcount := hperm.length_eq
      rw [horder,List.length_append,List.length_singleton,hlength] at hcount
      rw [turns,hnext]
      dsimp only
      rw [turns_eq_take hnodup (by omega) hmem,horder,List.take_append_of_le_length (by omega),
        List.take_of_length_le (by omega)]
      rw [horder] at hperm
      exact (List.perm_append_singleton next _).symm.trans hperm

end Projectnelth.RoundRobin
