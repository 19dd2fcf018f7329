import Mathlib

/-!
# A player's money

`Player::ModifyMoney` adds a signed 64-bit amount to an unsigned 64-bit balance.
A debit stops at 0; a credit has to stay below `MAX_MONEY_AMOUNT`, in 64-bit
arithmetic.
-/

namespace Projectnelth.PlayerMoney

def MAX_MONEY_AMOUNT : UInt64 := 9999999999

theorem MAX_MONEY_AMOUNT_toNat : MAX_MONEY_AMOUNT.toNat=9999999999 := by decide

/-- `ModifyMoney`: the new balance and the returned flag. -/
def ModifyMoney (money : UInt64) (amount : Int64) : UInt64×Bool :=
  if amount=0 then (money,true)
  else if amount < 0 then (if (-amount).toUInt64 < money then money+amount.toUInt64 else 0,true)
  else if money < MAX_MONEY_AMOUNT-amount.toUInt64 then (money+amount.toUInt64,true)
  else (money,false)

theorem toInt_toInt64 (amount : UInt64) :
    amount.toInt64.toInt=(amount.toNat : ℤ).bmod (2^64) :=
  BitVec.toInt_eq_toNat_bmod amount.toBitVec

theorem toInt_toInt64_of_lt {amount : UInt64} (h : amount.toNat < 2^63) :
    amount.toInt64.toInt=amount.toNat := by
  rw [toInt_toInt64]
  exact Int.bmod_eq_of_le (by omega) (by omega)

theorem ModifyMoney_debit {money amount : UInt64} (hmoney : amount ≤ money)
    (hamount : amount.toNat ≤ 2^63) : ModifyMoney money (-amount.toInt64)=(money-amount,true) := by
  have hneg : (-amount.toInt64).toInt=-amount.toNat := by
    rw [Int64.toInt_neg,toInt_toInt64,Int.bmod_neg_bmod]
    exact Int.bmod_eq_of_le (by omega) (by omega)
  have hle := UInt64.le_iff_toNat_le.mp hmoney
  unfold ModifyMoney
  by_cases hzero : amount=0
  · subst hzero
    rw [if_pos (by decide)]
    simp
  · have hpos : 0 < amount.toNat := by
      rcases Nat.eq_zero_or_pos amount.toNat with h | h
      · exact absurd (UInt64.toNat_inj.mp h) hzero
      · exact h
    have hlt : -amount.toInt64 < 0 := by
      rw [Int64.lt_iff_toInt_lt,hneg]
      exact neg_lt_zero.mpr (by exact_mod_cast hpos)
    have hne : -amount.toInt64≠0 := fun h => absurd (h ▸ hlt) (by decide)
    rw [if_neg hne,if_pos hlt]
    simp only [neg_neg,UInt64.toUInt64_toInt64,Int64.toUInt64_neg]
    split
    · rw [sub_eq_add_neg]
    rename_i hge
    rw [UInt64.lt_iff_toNat_lt] at hge
    have heq : amount=money := UInt64.toNat_inj.mp (by omega)
    rw [heq,sub_self]

/-- A credit either goes through in full or changes nothing. -/
theorem ModifyMoney_credit {money amount : UInt64} (hamount : amount ≤ MAX_MONEY_AMOUNT) :
    ModifyMoney money amount.toInt64=
      if amount=0 ∨ money.toNat+amount.toNat < MAX_MONEY_AMOUNT.toNat then (money+amount,true)
      else (money,false) := by
  have hle := UInt64.le_iff_toNat_le.mp hamount
  have hmax := MAX_MONEY_AMOUNT_toNat
  have hsmall : amount.toNat < 2^63 := by omega
  have hint := toInt_toInt64_of_lt hsmall
  unfold ModifyMoney
  by_cases hzero : amount=0
  · subst hzero
    rw [if_pos (by decide),if_pos (Or.inl rfl),add_zero]
  have hne : amount.toInt64≠0 := fun h => hzero (by
    have := congrArg Int64.toUInt64 h
    rwa [UInt64.toUInt64_toInt64] at this)
  have hnlt : ¬amount.toInt64 < 0 := by
    rw [Int64.lt_iff_toInt_lt,hint]
    exact not_lt.mpr (Int.natCast_nonneg _)
  rw [if_neg hne,if_neg hnlt]
  simp only [UInt64.toUInt64_toInt64,UInt64.lt_iff_toNat_lt,
    UInt64.toNat_sub_of_le _ _ hamount,hzero,false_or]
  congr 1
  exact propext (by omega)

/-- A sum that fits is exact. -/
theorem toNat_add_of_lt {a b : UInt64} (h : a.toNat+b.toNat < 2^64) :
    (a+b).toNat=a.toNat+b.toNat := by
  rw [UInt64.toNat_add]
  exact Nat.mod_eq_of_lt h

section Purses
variable {characters : Finset UInt32} {player : UInt32} {money : UInt32 → UInt64} {amount : UInt64}

theorem sum_update (hplayer : player∈characters) (money : UInt32 → UInt64) (balance : UInt64) :
    (∑ other∈characters,(Function.update money player balance other).toNat)+
      (money player).toNat=(∑ other∈characters,(money other).toNat)+balance.toNat := by
  have hrest : ∑ other∈characters.erase player,(Function.update money player balance other).toNat=
      ∑ other∈characters.erase player,(money other).toNat :=
    Finset.sum_congr rfl fun other hother => by
      rw [Function.update_of_ne (Finset.ne_of_mem_erase hother)]
  have hafter := Finset.sum_erase_add characters
    (fun other => (Function.update money player balance other).toNat) hplayer
  have hbefore := Finset.sum_erase_add characters (fun other => (money other).toNat) hplayer
  rw [Function.update_self,hrest] at hafter
  omega

theorem sum_debit (hplayer : player∈characters) (hmoney : amount ≤ money player)
    (hamount : amount.toNat ≤ 2^63) :
    (∑ other∈characters,(Function.update money player
      (ModifyMoney (money player) (-amount.toInt64)).1 other).toNat)+amount.toNat=
      ∑ other∈characters,(money other).toNat := by
  have hsum := sum_update hplayer money (ModifyMoney (money player) (-amount.toInt64)).1
  have hle := UInt64.le_iff_toNat_le.mp hmoney
  rw [ModifyMoney_debit hmoney hamount] at hsum ⊢
  rw [UInt64.toNat_sub_of_le _ _ hmoney] at hsum
  omega

end Purses

end Projectnelth.PlayerMoney
