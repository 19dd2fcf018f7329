import Mathlib
import Projectnelth.GuildBankModel

/-!
# What a guild bank pays out

Deposits and withdrawals move money and make none. A day's ledger records what
each member below the guild master took and the largest limit that applied when
it was taken; the counter of the code is at least the ledger as long as it is
not driven over the end of 32 bits.
-/

namespace Projectnelth.GuildBankMoney

open GuildRankModel GuildRankStructure PlayerMoney GuildBankModel RunInvariant

/-- What the members below the guild master took since the last reset. -/
structure Ledger where
  /-- The sum of the amounts. -/
  taken : UInt32 → ℕ
  /-- The largest limit of the ranks that they were taken under. -/
  limit : UInt32 → ℕ

/-- The limit of a rank for a day, in copper. -/
def goldLimit (g : Guild) (rankId : UInt8) : ℕ :=
  match getRankInfo g rankId with
  | some info => info.bankMoneyPerDay.toNat*10000
  | none => 0

/-- A member whose rank may withdraw, for repair at least. -/
def MayWithdraw (g : Guild) (m : Member) : Prop :=
  getRankRights g m.rankId &&& (GR_RIGHT_WITHDRAW_REPAIR ||| GR_RIGHT_WITHDRAW_GOLD)≠0

/-- A withdrawal entered into the ledger. -/
def enter (l : Ledger) (player : UInt32) (amount limit : ℕ) : Ledger :=
  ⟨Function.update l.taken player (l.taken player+amount),
    Function.update l.limit player (max (l.limit player) limit)⟩

/-- The ledger after an operation; a reset and a new membership start a new one. -/
def record (s : GuildBank) (l : Ledger) : BankOp → Ledger
  | .withdrawMoney player amount repair =>
    match getMember s.guild player with
    | some m =>
      if m.rankId≠GR_GUILDMASTER ∧ 0 < amount ∧ (handleMemberWithdrawMoney s player amount repair).2
      then enter l player amount.toNat (goldLimit s.guild m.rankId)
      else l
    | none => l
  | .ranks _ =>
    ⟨fun guid => if (getMember s.guild guid).isSome then l.taken guid else 0,
      fun guid => if (getMember s.guild guid).isSome then l.limit guid else 0⟩
  | .resetTimes _ => ⟨fun _ => 0,fun _ => 0⟩
  | _ => l

/-- The bank and the ledger. -/
abbrev Books := GuildBank×Ledger

/-- One operation and its entry. -/
def step (b : Books) (op : BankOp) : Books := (applyBank b.1 op,record b.1 b.2 op)

/-- The bank's money and a player's. -/
def total (s : GuildBank) (player : UInt32) : ℕ := s.bankMoney.toNat+(s.money player).toNat

/-- Only the player's money may differ. -/
def OthersKeep (s s' : GuildBank) (player : UInt32) : Prop :=
  ∀ other,other≠player → s'.money other=s.money other

/-- What an operation may do to money. -/
def Honest (s : GuildBank) (op : BankOp) (s' : GuildBank) : Prop :=
  match op with
  | .depositMoney player amount cashFlow =>
    if cashFlow then s'.bankMoney=s.bankMoney ∧ s'.money=s.money
    else total s' player=total s player ∧ s'.bankMoney.toNat=s.bankMoney.toNat+amount.toNat ∧
      OthersKeep s s' player
  | .withdrawMoney player amount repair =>
    if (handleMemberWithdrawMoney s player amount repair).2 then
      s.bankMoney.toNat=s'.bankMoney.toNat+amount.toNat ∧ OthersKeep s s' player ∧
      (if repair then s'.money=s.money else total s' player=total s player) ∧
      ∃ m,getMember s.guild player=some m ∧
        (m.rankId≠GR_GUILDMASTER → 0 < amount → MayWithdraw s.guild m)
    else s'=s
  | .resetTimes weekly =>
    s'.bankMoney.toNat=s.bankMoney.toNat+(if weekly then s.cashFlowContribution.toNat else 0) ∧
      s'.money=s.money
  | _ => s'.bankMoney=s.bankMoney ∧ s'.money=s.money

/-- The check of the packet handler of deposits. -/
def Called (s : GuildBank) : BankOp → Prop
  | .depositMoney player amount cashFlow => cashFlow=true ∨ amount ≤ s.money player
  | _ => True

/-- The player can be credited. -/
def Creditable (s : GuildBank) (player : UInt32) (amount : UInt64) (repair : Bool) : Prop :=
  repair=true ∨ (ModifyMoney (s.money player) amount.toInt64).2=true

/-- The sums fit their words, a member below the guild master who takes money has a right to, and
what a guild master has taken is counted when it is one no more. -/
def Sound (b : Books) : BankOp → Prop
  | .depositMoney _ amount cashFlow =>
    cashFlow=true ∨ amount.toNat ≤ 2^63 ∧ b.1.bankMoney.toNat+amount.toNat < 2^64
  | .withdrawMoney player amount repair =>
    ∀ m,getMember b.1.guild player=some m → 0 < amount → amount ≤ b.1.bankMoney →
      ¬(getMemberRemainingMoney b.1 m).toInt64.toUInt64 < amount →
      Creditable b.1 player amount repair →
      if m.rankId=GR_GUILDMASTER then
        repair=true ∨ amount.toNat < 2^63 ∧ (b.1.money player).toNat+amount.toNat < 2^64
      else MayWithdraw b.1.guild m ∧ (b.1.bankWithdraw player).toInt+amount.toNat < 2^31
  | .ranks op =>
    ∀ guid m m',getMember b.1.guild guid=some m → m.rankId=GR_GUILDMASTER →
      getMember (changeRanks b.1 op).guild guid=some m' → m'.rankId≠GR_GUILDMASTER →
      (b.2.taken guid : ℤ) ≤ (b.1.bankWithdraw guid).toInt
  | .resetTimes weekly =>
    weekly=true → b.1.bankMoney.toNat+b.1.cashFlowContribution.toNat < 2^64
  | _ => True

/-- The counters are not below the ledger, which keeps the limits. -/
structure Balanced (b : Books) : Prop where
  within : ∀ guid,b.2.taken guid ≤ b.2.limit guid
  /-- The counter of a member below the guild master covers what was taken. -/
  counted : ∀ guid m,getMember b.1.guild guid=some m → m.rankId≠GR_GUILDMASTER →
    (b.2.taken guid : ℤ) ≤ (b.1.bankWithdraw guid).toInt

theorem getMember_guid {g : Guild} {guid : UInt32} {m : Member} (h : getMember g guid=some m) :
    m.guid=guid := by
  have := List.find?_some h
  exact beq_iff_eq.mp this

theorem toInt_getRankBankMoneyPerDay (g : Guild) (rankId : UInt8) :
    (getRankBankMoneyPerDay g rankId).toInt=(goldLimit g rankId : ℤ).bmod (2^32) := by
  unfold getRankBankMoneyPerDay goldLimit
  cases getRankInfo g rankId with
  | none => rfl
  | some info =>
    have hword : (getBankMoneyPerDay info).toInt=
        (((info.bankMoneyPerDay*10000).toNat : ℕ) : ℤ).bmod (2^32) :=
      BitVec.toInt_eq_toNat_bmod (info.bankMoneyPerDay*10000).toBitVec
    dsimp only
    rw [hword,UInt32.toNat_mul,Int.natCast_emod]
    exact Int.emod_bmod _ _

/-- What the code lets a member take is within the limit, whatever the limit
overflows to: the two differ by a multiple of 2^32 that is not negative. -/
theorem remaining_within {s : GuildBank} {m : Member} {amount : UInt64}
    (hmaster : m.rankId≠GR_GUILDMASTER) (hcount : 0 ≤ (s.bankWithdraw m.guid).toInt)
    (hpos : 0 < amount) (h : ¬(getMemberRemainingMoney s m).toInt64.toUInt64 < amount) :
    (s.bankWithdraw m.guid).toInt+amount.toNat ≤ goldLimit s.guild m.rankId := by
  have hzero : ¬(0 : Int32).toInt64.toUInt64 < amount → False := fun hle => hle hpos
  rw [getMemberRemainingMoney,if_neg hmaster] at h
  split at h
  · dsimp only at h
    split at h
    · rename_i hremaining
      rw [getBankWithdrawValue,if_neg hmaster] at h hremaining
      have hr := Int32.toInt_sub (getRankBankMoneyPerDay s.guild m.rankId) (s.bankWithdraw m.guid)
      rw [toInt_getRankBankMoneyPerDay] at hr
      generalize getRankBankMoneyPerDay s.guild m.rankId-s.bankWithdraw m.guid=remaining
        at h hremaining hr
      have hword : remaining.toInt64.toUInt64.toNat=remaining.toInt.toNat := by
        rw [Int64.toNat_toUInt64_of_le (by
          rw [Int64.le_iff_toInt_le,Int32.toInt_toInt64]
          exact (Int32.lt_iff_toInt_lt.mp hremaining).le)]
        exact congrArg Int.toNat (Int32.toInt_toInt64 remaining)
      have hlt := Int32.lt_iff_toInt_lt.mp hremaining
      have hsmall := Int32.toInt_lt (s.bankWithdraw m.guid)
      have hbound := Int32.toInt_lt remaining
      rw [Int.bmod_sub_bmod,Int.bmod_def] at hr
      rw [UInt64.lt_iff_toNat_lt,hword] at h
      have hzero' : (0 : Int32).toInt=0 := rfl
      split at hr <;> omega
    · exact (hzero h).elim
  · exact (hzero h).elim

/-- A counter that stays in 32 bits grows by the amount. -/
theorem toInt_counter {counter : Int32} {amount : UInt64} (hcount : 0 ≤ counter.toInt)
    (h : counter.toInt+amount.toNat < 2^31) :
    (counter.toUInt32+amount.toUInt32).toInt32.toInt=counter.toInt+amount.toNat := by
  have hadd : (counter.toUInt32+amount.toUInt32).toInt32=counter+amount.toUInt32.toInt32 := by
    rw [UInt32.toInt32_add,Int32.toInt32_toUInt32]
  have hamount : amount.toUInt32.toInt32.toInt=amount.toNat := by
    have hword : amount.toUInt32.toInt32.toInt=((amount.toUInt32.toNat : ℕ) : ℤ).bmod (2^32) :=
      BitVec.toInt_eq_toNat_bmod amount.toUInt32.toBitVec
    rw [hword,UInt64.toNat_toUInt32,Nat.mod_eq_of_lt (by omega)]
    exact Int.bmod_eq_of_le (by omega) (by omega)
  rw [hadd,Int32.toInt_add,hamount]
  exact Int.bmod_eq_of_le (by omega) (by omega)

theorem withdraw_accepted {s : GuildBank} {player : UInt32} {amount : UInt64} {repair : Bool}
    (h : (handleMemberWithdrawMoney s player amount repair).2=true) :
    ∃ m credited,getMember s.guild player=some m ∧ amount ≤ s.bankMoney ∧
      ¬(getMemberRemainingMoney s m).toInt64.toUInt64 < amount ∧
      (if repair then (s.money player,true) else ModifyMoney (s.money player) amount.toInt64)=
        (credited,true) ∧ Creditable s player amount repair ∧
      (handleMemberWithdrawMoney s player amount repair).1=
        { s with
          bankMoney := s.bankMoney-amount
          bankWithdraw := Function.update s.bankWithdraw player
            ((s.bankWithdraw player).toUInt32+amount.toUInt32).toInt32
          money := Function.update s.money player credited } := by
  unfold handleMemberWithdrawMoney at h ⊢
  split at h
  · cases h
  rename_i hbank
  cases hm : getMember s.guild player with
  | none =>
    rw [hm] at h
    cases h
  | some m =>
    rw [hm] at h
    by_cases hremaining : (getMemberRemainingMoney s m).toInt64.toUInt64 < amount
    · simp only [hremaining,if_true] at h
      cases h
    simp only [hremaining,if_false] at h ⊢
    generalize hcredited : (if repair then (s.money player,true)
      else ModifyMoney (s.money player) amount.toInt64)=credited at h ⊢
    obtain ⟨credited,accepted⟩ := credited
    cases accepted with
    | true =>
      refine ⟨m,credited,rfl,UInt64.not_lt.mp hbank,hremaining,rfl,?_,?_⟩
      · cases repair with
        | true => exact Or.inl rfl
        | false =>
          rw [if_neg Bool.false_ne_true] at hcredited
          exact Or.inr (by rw [hcredited])
      · rw [if_neg hbank]
        rfl
    | false => cases h

theorem withdraw_refused {s : GuildBank} {player : UInt32} {amount : UInt64} {repair : Bool}
    (h : (handleMemberWithdrawMoney s player amount repair).2=false) :
    (handleMemberWithdrawMoney s player amount repair).1=s := by
  unfold handleMemberWithdrawMoney at h ⊢
  split
  · rfl
  · cases hm : getMember s.guild player with
    | none => rfl
    | some m =>
      rw [if_neg ‹_›,hm] at h
      by_cases hremaining : (getMemberRemainingMoney s m).toInt64.toUInt64 < amount
      · simp only [hremaining,if_true]
      simp only [hremaining,if_false] at h ⊢
      generalize (if repair then (s.money player,true)
        else ModifyMoney (s.money player) amount.toInt64)=credited at h ⊢
      obtain ⟨credited,accepted⟩ := credited
      cases accepted with
      | true => cases h
      | false => rfl

/-- The player is credited in full. -/
theorem credited_total {money credited amount : UInt64} (hamount : amount.toNat < 2^31)
    (h : ModifyMoney money amount.toInt64=(credited,true)) :
    credited.toNat=money.toNat+amount.toNat := by
  have hmax := MAX_MONEY_AMOUNT_toNat
  have hle : amount ≤ MAX_MONEY_AMOUNT := by
    rw [UInt64.le_iff_toNat_le]
    omega
  rw [ModifyMoney_credit hle] at h
  split at h
  · rename_i hfits
    obtain rfl := (Prod.mk.inj h).1
    rcases hfits with rfl | hfits
    · rw [add_zero]
      rfl
    · exact toNat_add_of_lt (by omega)
  · exact absurd (Prod.mk.inj h).2 Bool.false_ne_true

/-- A sum that fits is credited in full, whatever the greatest balance is. -/
theorem credited_fits {money credited amount : UInt64} (hamount : amount.toNat < 2^63)
    (hsum : money.toNat+amount.toNat < 2^64)
    (h : ModifyMoney money amount.toInt64=(credited,true)) :
    credited.toNat=money.toNat+amount.toNat := by
  unfold ModifyMoney at h
  have hneg : ¬amount.toInt64 < 0 := by
    rw [Int64.lt_iff_toInt_lt,toInt_toInt64_of_lt hamount]
    exact not_lt.mpr (Int.natCast_nonneg _)
  rw [if_neg hneg] at h
  split_ifs at h with hzero hfits
  · have hamount := toInt_toInt64_of_lt hamount
    rw [hzero] at hamount
    obtain rfl := (Prod.mk.inj h).1
    exact (congrArg (money.toNat+·) (Int.natCast_eq_zero.mp hamount.symm)).symm
  · rw [← (Prod.mk.inj h).1,UInt64.toUInt64_toInt64]
    exact toNat_add_of_lt hsum
  · cases h

theorem honest_plain_deposit {s : GuildBank} {player : UInt32} {amount : UInt64}
    (hmoney : amount ≤ s.money player) (hamount : amount.toNat ≤ 2^63)
    (hbank : s.bankMoney.toNat+amount.toNat < 2^64) :
    Honest s (.depositMoney player amount false)
      (handleMemberDepositMoney s player amount false) := by
  have hsum := toNat_add_of_lt hbank
  have hdebit := ModifyMoney_debit hmoney hamount
  have hle := UInt64.le_iff_toNat_le.mp hmoney
  have hsub := UInt64.toNat_sub_of_le _ _ hmoney
  simp only [Honest,total,OthersKeep,handleMemberDepositMoney,Bool.false_eq_true,if_false,
    Function.update_self,hdebit]
  clear hamount hbank
  exact ⟨by omega,hsum,fun other hother => Function.update_of_ne hother _ _⟩

theorem honest_deposit {b : Books} {player : UInt32} {amount : UInt64} {cashFlow : Bool}
    (hcalled : Called b.1 (.depositMoney player amount cashFlow))
    (hsound : Sound b (.depositMoney player amount cashFlow)) :
    Honest b.1 (.depositMoney player amount cashFlow)
      (handleMemberDepositMoney b.1 player amount cashFlow) := by
  cases cashFlow with
  | true => exact ⟨rfl,rfl⟩
  | false =>
    obtain ⟨hamount,hbank⟩ := hsound.resolve_left Bool.false_ne_true
    exact honest_plain_deposit (hcalled.resolve_left Bool.false_ne_true) hamount hbank

theorem Balanced.nonneg {b : Books} (hb : Balanced b) {guid : UInt32} {m : Member}
    (hm : getMember b.1.guild guid=some m) (hrank : m.rankId≠GR_GUILDMASTER) :
    0 ≤ (b.1.bankWithdraw m.guid).toInt := by
  rw [getMember_guid hm]
  exact (Int.natCast_nonneg _).trans (hb.counted guid m hm hrank)

theorem honest_withdraw {b : Books} {player : UInt32} {amount : UInt64} {repair : Bool}
    (hb : Balanced b) (hsound : Sound b (.withdrawMoney player amount repair)) :
    Honest b.1 (.withdrawMoney player amount repair)
      (handleMemberWithdrawMoney b.1 player amount repair).1 := by
  obtain ⟨s,l⟩ := b
  unfold Honest
  dsimp only
  split
  · rename_i haccepted
    obtain ⟨m,credited,hm,hbank,hremaining,hcredited,hcreditable,hafter⟩ :=
      withdraw_accepted haccepted
    rw [hafter]
    have hle := UInt64.le_iff_toNat_le.mp hbank
    have hsub := UInt64.toNat_sub_of_le _ _ hbank
    have hbank' : s.bankMoney.toNat=(s.bankMoney-amount).toNat+amount.toNat := by
      rw [hsub]
      exact (Nat.sub_add_cancel hle).symm
    have hcheck := fun hpos => hsound m hm hpos hbank hremaining hcreditable
    refine ⟨hbank',fun other hother => Function.update_of_ne hother _ _,?_,m,hm,
      fun hrank hpos => ?_⟩
    · cases repair with
      | true =>
        rw [if_pos rfl] at hcredited ⊢
        obtain rfl := (Prod.mk.inj hcredited).1
        exact Function.update_eq_self _ _
      | false =>
        rw [if_neg Bool.false_ne_true] at hcredited ⊢
        have hmoney : credited.toNat=(s.money player).toNat+amount.toNat := by
          rcases Nat.eq_zero_or_pos amount.toNat with hzero | hpos
          · exact credited_total (by omega) hcredited
          have hcheck := hcheck (UInt64.lt_iff_toNat_lt.mpr (by simpa using hpos))
          split at hcheck
          · obtain ⟨hamount,hsum⟩ := hcheck.resolve_left Bool.false_ne_true
            exact credited_fits hamount hsum hcredited
          · next hrank =>
            have hnonneg := hb.nonneg hm hrank
            rw [getMember_guid hm] at hnonneg
            exact credited_total (by omega) hcredited
        simp only [total,Function.update_self,hmoney]
        rw [hbank',add_assoc,add_comm amount.toNat]
    · have hcheck := hcheck hpos
      rw [if_neg hrank] at hcheck
      exact hcheck.1
  · rename_i hrefused
    exact withdraw_refused (Bool.not_eq_true _ ▸ hrefused)

/-- Every sound operation treats money honestly. -/
theorem Balanced.honest {b : Books} (hb : Balanced b) {op : BankOp} (hcalled : Called b.1 op)
    (hsound : Sound b op) : Honest b.1 op (applyBank b.1 op) := by
  cases op with
  | depositMoney player amount cashFlow => exact honest_deposit hcalled hsound
  | withdrawMoney player amount repair =>
    exact honest_withdraw hb hsound
  | setRankInfo player rankId name rights moneyPerDay => exact ⟨rfl,rfl⟩
  | ranks op => exact ⟨rfl,rfl⟩
  | resetTimes weekly =>
    refine ⟨?_,rfl⟩
    cases weekly with
    | true => exact toNat_add_of_lt (hsound rfl)
    | false => rfl

theorem getMember_handleSetRankInfo (g : Guild) (player : UInt32) (rankId : UInt8) (name : String)
    (rights moneyPerDay guid : UInt32) :
    getMember (handleSetRankInfo g player rankId name rights moneyPerDay) guid=getMember g guid := by
  unfold handleSetRankInfo
  split
  · split <;> rfl
  · rfl

/-- Every sound operation keeps the ledger balanced. -/
theorem Balanced.step {b : Books} (hb : Balanced b) {op : BankOp} (hsound : Sound b op) :
    Balanced (step b op) := by
  obtain ⟨s,l⟩ := b
  cases op with
  | depositMoney player amount cashFlow =>
    have hkeep : (handleMemberDepositMoney s player amount cashFlow).guild=s.guild ∧
        (handleMemberDepositMoney s player amount cashFlow).bankWithdraw=s.bankWithdraw := by
      cases cashFlow <;> exact ⟨rfl,rfl⟩
    refine ⟨hb.within,fun guid m hm => ?_⟩
    simp only [GuildBankMoney.step,applyBank,record,hkeep.1,hkeep.2] at hm ⊢
    exact hb.counted guid m hm
  | withdrawMoney player amount repair =>
    simp only [GuildBankMoney.step,applyBank,record]
    cases haccepted : (handleMemberWithdrawMoney s player amount repair).2 with
    | false =>
      rw [withdraw_refused haccepted]
      cases getMember s.guild player with
      | none => exact hb
      | some m => simpa using hb
    | true =>
      obtain ⟨m,credited,hm,hbank,hremaining,-,hcreditable,hafter⟩ :=
        withdraw_accepted haccepted
      rw [hm,hafter]
      dsimp only
      by_cases hrank : m.rankId=GR_GUILDMASTER
      · -- the counter of a guild master may be anything
        rw [if_neg fun h => h.1 hrank]
        refine ⟨hb.within,fun guid m' hm' hrank' => ?_⟩
        have hother : guid≠player := fun heq =>
          hrank' (Option.some.inj (hm.symm.trans (heq ▸ hm')) ▸ hrank)
        dsimp only
        rw [Function.update_of_ne hother]
        exact hb.counted guid m' hm' hrank'
      have hnonneg := hb.nonneg hm hrank
      rw [getMember_guid hm] at hnonneg
      have hcount := hb.counted player m hm hrank
      rcases Nat.eq_zero_or_pos amount.toNat with hzero | hpos
      · -- nothing is taken
        have hamount : amount=0 := UInt64.toNat_inj.mp hzero
        subst hamount
        have hsame : ((s.bankWithdraw player).toUInt32+(0 : UInt64).toUInt32).toInt32=
            s.bankWithdraw player := by
          rw [show (0 : UInt64).toUInt32=0 by decide,add_zero,Int32.toInt32_toUInt32]
        rw [hsame,Function.update_eq_self,if_neg fun h => absurd h.2.1 (lt_irrefl 0)]
        exact ⟨hb.within,hb.counted⟩
      · have hamount : 0 < amount := UInt64.lt_iff_toNat_lt.mpr (by simpa using hpos)
        have hlimit := remaining_within hrank (hb.nonneg hm hrank) hamount hremaining
        rw [getMember_guid hm] at hlimit
        have hcheck := hsound m hm hamount hbank hremaining hcreditable
        rw [if_neg hrank] at hcheck
        have hcounter := toInt_counter hnonneg hcheck.2
        rw [if_pos ⟨hrank,hamount,rfl⟩]
        dsimp only at hcount hlimit hcounter
        refine ⟨fun guid => ?_,fun guid m' hm' hrank' => ?_⟩
        · simp only [enter,Function.update_apply]
          split
          · exact le_max_of_le_right (by omega)
          · exact hb.within guid
        · simp only [enter,Function.update_apply]
          split
          · rw [hcounter]
            push_cast
            omega
          · exact hb.counted guid m' hm' hrank'
  | setRankInfo player rankId name rights moneyPerDay =>
    refine ⟨hb.within,fun guid m hm => hb.counted guid m ?_⟩
    simp only [GuildBankMoney.step,applyBank,getMember_handleSetRankInfo] at hm
    exact hm
  | ranks op =>
    refine ⟨fun guid => ?_,fun guid m' hm' hrank' => ?_⟩
    · simp only [GuildBankMoney.step,record]
      split
      · exact hb.within guid
      · exact le_rfl
    · simp only [GuildBankMoney.step,applyBank,record,changeRanks]
      cases hm : getMember s.guild guid with
      | none => exact le_rfl
      | some m =>
        by_cases hrank : m.rankId=GR_GUILDMASTER
        · exact hsound guid m m' hm hrank hm' hrank'
        · exact hb.counted guid m hm hrank
  | resetTimes weekly => exact ⟨fun _ => le_rfl,fun _ _ _ _ => le_rfl⟩

/-- Nothing taken yet. -/
def noLedger : Ledger := ⟨fun _ => 0,fun _ => 0⟩

/-- A run of sound operations treats money honestly at every place, and nobody
has taken more than the limit at its end. -/
theorem guild_bank_money {s : GuildBank} {ops : List BankOp}
    (hstart : ∀ guid,0 ≤ (s.bankWithdraw guid).toInt)
    (hrun : Meets step (fun b op => Called b.1 op ∧ Sound b op) (s,noLedger) ops) :
    (∀ guid,(run step (s,noLedger) ops).2.taken guid ≤
      (run step (s,noLedger) ops).2.limit guid) ∧
    ∀ before op after,ops=before++op::after →
      Honest (run step (s,noLedger) before).1 op (run step (s,noLedger) (before++[op])).1 := by
  have hbalanced : Balanced (s,noLedger) := ⟨fun _ => le_rfl,fun guid _ _ _ => hstart guid⟩
  have hstep : ∀ b op,Balanced b → Called b.1 op ∧ Sound b op → Balanced (step b op) :=
    fun b op hb hop => hb.step hop.2
  refine ⟨(run_invariant hstep hbalanced hrun).within,?_⟩
  rintro before op after rfl
  obtain ⟨hb,hcalled,hsound⟩ := run_step hstep hbalanced hrun
  rw [run_append]
  exact hb.honest hcalled hsound

/-- A guild with its leader and an initiate, whose rank has the rights given and a
limit of one gold. -/
def bank (rights : UInt32) : GuildBank where
  guild :=
    { leaderGuid := 1
      ranks := [⟨0,"",GR_RIGHT_ALL,0⟩,⟨1,"",GR_RIGHT_ALL,0⟩,⟨2,"",67,0⟩,⟨3,"",67,0⟩,
        ⟨4,"",rights,1⟩]
      members := [⟨1,"",0⟩,⟨3,"",4⟩]
      nodup := by decide }
  bankMoney := 0
  cashFlowContribution := 0
  bankWithdraw := fun _ => 0
  money := fun _ => 20000

/-- A deposit by the leader and a withdrawal by the initiate. -/
def depositAndTake : List BankOp := [.depositMoney 1 20000 false,.withdrawMoney 3 10000 false]

/-- An initiate with the right takes what the leader has put in. -/
theorem guild_bank_money_taken :
    (run step (bank GR_RIGHT_WITHDRAW_GOLD,noLedger) depositAndTake).2.taken 3=10000 ∧
    (run step (bank GR_RIGHT_WITHDRAW_GOLD,noLedger) depositAndTake).2.taken 3 ≤
      (run step (bank GR_RIGHT_WITHDRAW_GOLD,noLedger) depositAndTake).2.limit 3 := by
  have hrun : Meets step (fun b op => Called b.1 op ∧ Sound b op)
      (bank GR_RIGHT_WITHDRAW_GOLD,noLedger) depositAndTake := by
    refine ⟨⟨Or.inr (by decide),Or.inr (by decide)⟩,⟨trivial,?_⟩,trivial⟩
    rintro m hm - - - -
    cases hm
    rw [if_neg (by decide)]
    exact ⟨by unfold MayWithdraw; decide,by decide⟩
  exact ⟨by decide,(guild_bank_money (fun _ => (by decide : 0 ≤ (0 : Int32).toInt)) hrun).1 3⟩

/-- The rank of the initiate has neither right, and the initiate takes a gold piece. -/
theorem withdraws_without_right :
    ¬∀ (s : GuildBank) (ops : List BankOp),(∀ guid,s.bankWithdraw guid=0) →
      Meets step (fun b op => Called b.1 op) (s,noLedger) ops →
      (∀ guid,(run step (s,noLedger) ops).2.taken guid ≤
        (run step (s,noLedger) ops).2.limit guid) ∧
      ∀ before op after,ops=before++op::after →
        Honest (run step (s,noLedger) before).1 op (run step (s,noLedger) (before++[op])).1 := by
  intro h
  have hcalled : Meets step (fun b op => Called b.1 op) (bank 67,noLedger) depositAndTake :=
    ⟨Or.inr (by decide),trivial,trivial⟩
  have hhonest := (h (bank 67) depositAndTake (fun _ => rfl) hcalled).2
    [.depositMoney 1 20000 false] (.withdrawMoney 3 10000 false) [] rfl
  have haccepted : (handleMemberWithdrawMoney
      (run step (bank 67,noLedger) [.depositMoney 1 20000 false]).1 3 10000 false).2=true := by
    decide
  rw [Honest,if_pos haccepted] at hhonest
  obtain ⟨-,-,-,m,hm,hright⟩ := hhonest
  cases hm
  exact hright (by decide) (by decide) (by decide)

end Projectnelth.GuildBankMoney
