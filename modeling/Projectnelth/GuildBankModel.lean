import Mathlib
import Projectnelth.GuildRankStructure
import Projectnelth.PlayerMoney

/-!
# The money of a guild bank

The bank's money, the money a member has taken since the last reset and the
limits that the ranks set for a day. The counter of a member is the one of
`m_bankWithdraw` that counts money; bank tabs, logs, broadcasts and the database
are left out.
-/

namespace Projectnelth.GuildBankModel

open GuildRankModel GuildRankStructure PlayerMoney

def GR_RIGHT_WITHDRAW_REPAIR : UInt32 := 0x00040000

def GR_RIGHT_WITHDRAW_GOLD : UInt32 := 0x00080000

def GUILD_WITHDRAW_MONEY_UNLIMITED : UInt32 := 0xFFFFFFFF

/-- The guild with its bank, and the players' money. -/
structure GuildBank where
  /-- The ranks and the members. -/
  guild : Guild
  /-- `m_bankMoney`. -/
  bankMoney : UInt64
  /-- `m_cashFlowContribution`. -/
  cashFlowContribution : UInt64
  /-- `m_bankWithdraw[GUILD_BANK_MAX_TABS]` of the members. -/
  bankWithdraw : UInt32 → Int32
  /-- `GetMoney()` of the players. -/
  money : UInt32 → UInt64

/-- `RankInfo::GetBankMoneyPerDay`. -/
def getBankMoneyPerDay (info : RankInfo) : Int32 := (info.bankMoneyPerDay*10000).toInt32

def getRankBankMoneyPerDay (g : Guild) (rankId : UInt8) : Int32 :=
  match getRankInfo g rankId with
  | some info => getBankMoneyPerDay info
  | none => 0

/-- `GetBankWithdrawValue(GUILD_BANK_MAX_TABS)`. -/
def getBankWithdrawValue (s : GuildBank) (member : Member) : Int32 :=
  if member.rankId=GR_GUILDMASTER then GUILD_WITHDRAW_MONEY_UNLIMITED.toInt32
  else s.bankWithdraw member.guid

def getMemberRemainingMoney (s : GuildBank) (member : Member) : Int32 :=
  if member.rankId=GR_GUILDMASTER then GUILD_WITHDRAW_MONEY_UNLIMITED.toInt32
  else if getRankRights s.guild member.rankId &&&
      (GR_RIGHT_WITHDRAW_REPAIR ||| GR_RIGHT_WITHDRAW_GOLD) != GR_RIGHT_EMPTY then
    let remaining := getRankBankMoneyPerDay s.guild member.rankId-getBankWithdrawValue s member
    if 0 < remaining then remaining else 0
  else 0

def handleMemberDepositMoney (s : GuildBank) (player : UInt32) (amount : UInt64)
    (cashFlow : Bool) : GuildBank :=
  if cashFlow then { s with cashFlowContribution := s.cashFlowContribution+amount }
  else
    { s with
      bankMoney := s.bankMoney+amount
      money := Function.update s.money player (ModifyMoney (s.money player) (-amount.toInt64)).1 }

def handleMemberWithdrawMoney (s : GuildBank) (player : UInt32) (amount : UInt64)
    (repair : Bool) : GuildBank×Bool :=
  if s.bankMoney < amount then (s,false)
  else match getMember s.guild player with
    | none => (s,false)
    | some member =>
      if (getMemberRemainingMoney s member).toInt64.toUInt64 < amount then (s,false)
      else
        let credited :=
          if repair then (s.money player,true) else ModifyMoney (s.money player) amount.toInt64
        if credited.2 then
          ({ s with
             bankMoney := s.bankMoney-amount
             bankWithdraw := Function.update s.bankWithdraw player
               ((s.bankWithdraw player).toUInt32+amount.toUInt32).toInt32
             money := Function.update s.money player credited.1 },true)
        else (s,false)

/-- `SetName`, `SetRights` and `SetBankMoneyPerDay` of a rank. -/
def setRankInfo (info : RankInfo) (name : String) (rights moneyPerDay : UInt32) : RankInfo :=
  if info.rankId=GR_GUILDMASTER then
    ⟨info.rankId,name,GR_RIGHT_ALL,GUILD_WITHDRAW_MONEY_UNLIMITED⟩
  else ⟨info.rankId,name,rights,moneyPerDay⟩

/-- `HandleSetRankInfo`, without the rights on tabs. -/
def handleSetRankInfo (g : Guild) (player : UInt32) (rankId : UInt8) (name : String)
    (rights moneyPerDay : UInt32) : Guild :=
  if isLeader g player then
    match getRankInfo g rankId with
    | some info =>
      { g with ranks := g.ranks.set rankId.toNat (setRankInfo info name rights moneyPerDay) }
    | none => g
  else g

def resetTimes (s : GuildBank) (weekly : Bool) : GuildBank :=
  { s with
    bankMoney := if weekly then s.bankMoney+s.cashFlowContribution else s.bankMoney
    cashFlowContribution := if weekly then 0 else s.cashFlowContribution
    bankWithdraw := fun _ => 0 }

/-- A change of ranks or members; the counter of a new member is 0. -/
def changeRanks (s : GuildBank) (op : GuildOp) : GuildBank :=
  { s with
    guild := (apply s.guild op).getD s.guild
    bankWithdraw := fun guid => if (getMember s.guild guid).isSome then s.bankWithdraw guid else 0 }

/-- The operations on a guild that its bank's money depends on. -/
inductive BankOp where
  | depositMoney (player : UInt32) (amount : UInt64) (cashFlow : Bool)
  | withdrawMoney (player : UInt32) (amount : UInt64) (repair : Bool)
  | setRankInfo (player : UInt32) (rankId : UInt8) (name : String) (rights moneyPerDay : UInt32)
  | ranks (op : GuildOp)
  | resetTimes (weekly : Bool)

/-- One operation. -/
def applyBank (s : GuildBank) : BankOp → GuildBank
  | .depositMoney player amount cashFlow => handleMemberDepositMoney s player amount cashFlow
  | .withdrawMoney player amount repair => (handleMemberWithdrawMoney s player amount repair).1
  | .setRankInfo player rankId name rights moneyPerDay =>
    { s with guild := handleSetRankInfo s.guild player rankId name rights moneyPerDay }
  | .ranks op => changeRanks s op
  | .resetTimes weekly => resetTimes s weekly

end Projectnelth.GuildBankModel
