import Mathlib

/-!
# An amount in stacks

An amount that is split into stacks of at most one size: each stack takes what is left, up to the
size. With enough stacks the amount is used up, and all but the last one are full.
-/

namespace Projectnelth.StackSplit

variable {size amount n : ℕ}

/-- How many stacks hold the amount. -/
def pilesFor (size amount : ℕ) : ℕ := (amount+size-1)/size

/-- The first stacks of an amount. -/
def piles (size : ℕ) : ℕ → ℕ → List ℕ
  | 0,_ => []
  | n+1,amount => min amount size::piles size n (amount-min amount size)

@[simp] theorem length_piles (size n amount : ℕ) : (piles size n amount).length=n := by
  induction n generalizing amount with
  | zero => rfl
  | succ n ih => simp [piles,ih]

/-- What is left needs one stack less. -/
theorem pilesFor_rest (hsize : 0 < size) (h : 0 < amount) :
    pilesFor size (amount-min amount size)+1=pilesFor size amount := by
  unfold pilesFor
  rcases le_total amount size with hle | hle
  · have hone : (amount+size-1)/size=1 := by
      refine Nat.div_eq_of_lt_le ?_ ?_ <;> omega
    have hzero : (amount-min amount size+size-1)/size=0 := by
      refine Nat.div_eq_of_lt ?_
      rw [min_eq_left hle]
      omega
    omega
  · rw [min_eq_right hle]
    have hsplit : amount+size-1=amount-size+size-1+size := by omega
    rw [hsplit,Nat.add_div_right _ hsize]

theorem pilesFor_pos (hsize : 0 < size) : 0 < pilesFor size amount ↔ 0 < amount := by
  unfold pilesFor
  rw [Nat.div_pos_iff]
  omega

/-- Rounding the quotient up by hand: one more for a remainder, and never none. -/
theorem pilesFor_eq (hsize : 0 < size) (h : 0 < amount) :
    (if amount%size≠0 ∨ amount/size=0 then amount/size+1 else amount/size)=
      pilesFor size amount := by
  unfold pilesFor
  have hdiv := Nat.div_add_mod amount size
  have hmod := Nat.mod_lt amount hsize
  split_ifs with hrest
  · have hpos : 0 < amount%size := by
      rcases hrest with hne | hzero
      · omega
      · rw [hzero,Nat.mul_zero,Nat.zero_add] at hdiv
        omega
    refine (Nat.div_eq_of_lt_le ?_ ?_).symm
    · rw [Nat.add_mul,Nat.mul_comm]
      omega
    · rw [Nat.add_mul,Nat.add_mul,Nat.mul_comm (amount/size)]
      omega
  · have hzero : amount%size=0 := by omega
    refine (Nat.div_eq_of_lt_le ?_ ?_).symm
    · rw [Nat.mul_comm]
      omega
    · rw [Nat.add_mul,Nat.mul_comm (amount/size)]
      omega

/-- Each of the needed stacks holds something, and no more than its size. -/
theorem piles_within (hsize : 0 < size) (hn : n ≤ pilesFor size amount) :
    ∀ count∈piles size n amount,1 ≤ count ∧ count ≤ size := by
  induction n generalizing amount with
  | zero => simp [piles]
  | succ n ih =>
    have hpos : 0 < amount := (pilesFor_pos hsize).mp (by omega)
    have hrest := pilesFor_rest hsize hpos
    intro count hcount
    rcases List.mem_cons.mp hcount with rfl | hcount
    · constructor <;> omega
    · exact ih (by omega) count hcount

/-- All needed stacks but the last one are full. -/
theorem piles_full (hsize : 0 < size) (hn : n ≤ pilesFor size amount) :
    ∀ count∈(piles size n amount).dropLast,count=size := by
  induction n generalizing amount with
  | zero => simp [piles]
  | succ n ih =>
    have hpos : 0 < amount := (pilesFor_pos hsize).mp (by omega)
    have hrest := pilesFor_rest hsize hpos
    intro count hcount
    cases n with
    | zero => simp [piles] at hcount
    | succ n =>
      have hmore : 0 < amount-min amount size := (pilesFor_pos hsize).mp (by omega)
      rw [piles,List.dropLast_cons_of_ne_nil (by simp [piles])] at hcount
      rcases List.mem_cons.mp hcount with rfl | hcount
      · omega
      · exact ih (by omega) count hcount

/-- The needed stacks hold the amount. -/
theorem sum_piles (hsize : 0 < size) (hn : n=pilesFor size amount) :
    (piles size n amount).sum=amount := by
  induction n generalizing amount with
  | zero =>
    have hzero : ¬0 < amount := fun h => by
      have hpos := (pilesFor_pos hsize).mpr h
      omega
    simp only [piles,List.sum_nil]
    omega
  | succ n ih =>
    have hpos : 0 < amount := (pilesFor_pos hsize).mp (by omega)
    have hrest := pilesFor_rest hsize hpos
    rw [piles,List.sum_cons,ih (by omega)]
    omega

end Projectnelth.StackSplit
