import Mathlib
import Projectnelth.GuildRankAuthorization

/-!
# The rank structure over whole runs

Ranks and members refer to each other by position only. Six of the operations
keep the correspondence as long as they are called within the bounds stated
here; each bound is one that the operation itself does not check.
-/

namespace Projectnelth.GuildRankStructure

open GuildRankModel GuildRankAuthorization RunInvariant

/-- Everything that members and packets can trigger, and a rehash of the members. -/
inductive GuildOp where
  | addNewRank (player : UInt32) (name : String)
  | delRank (player rankId : UInt32)
  | switchRank (player rankId : UInt32) (up : Bool)
  | byMember (player : UInt32) (op : MemberOp)
  | setNewGuildMaster (player : UInt32) (name : String)
  | addMember (guid : UInt32) (name : String) (rankId : UInt8) (refused : Bool)
  | rehash (members : List Member)

/-- One operation; `none` is an access to `m_ranks` out of range. -/
def apply (g : Guild) : GuildOp → Option Guild
  | .addNewRank player name => some (handleAddNewRank g player name)
  | .delRank player rankId => handleGuildDelRankOpcode g player rankId
  | .switchRank player rankId up => handleGuildSwitchRankOpcode g player rankId up
  | .byMember player op => some (handle g player op)
  | .setNewGuildMaster player name => some (handleSetNewGuildMaster g player name)
  | .addMember guid name rankId refused => some (addMember g guid name rankId refused)
  | .rehash members => some (rehash g members)

/-- Nothing follows an access out of range. -/
def step (s : Option Guild) (op : GuildOp) : Option Guild := s.bind fun g => apply g op

/-- Ranks are numbered and within their limits, members name existing ranks,
the leader alone has the highest rank, and that rank has all rights. -/
structure Structured (g : Guild) : Prop where
  ids : ∀ i info, g.ranks[i]?=some info → info.rankId=UInt8.ofNat i
  /-- Not fewer ranks than allowed. -/
  min : GUILD_RANKS_MIN_COUNT ≤ g.ranks.length
  /-- Not more ranks than allowed. -/
  max : g.ranks.length ≤ GUILD_RANKS_MAX_COUNT
  exist : ∀ m∈g.members, m.rankId.toNat < g.ranks.length
  leader : ∃ m∈g.members, m.guid=g.leaderGuid
  alone : ∀ m∈g.members, m.rankId=GR_GUILDMASTER ↔ m.guid=g.leaderGuid
  rights : ∃ info, g.ranks[0]?=some info ∧ info.rights=GR_RIGHT_ALL

/-- What an operation leaves unchecked. -/
def Bounded (g : Guild) : GuildOp → Prop
  | .delRank player rankId =>
    isLeader g player=true → GUILD_RANKS_MIN_COUNT < g.ranks.length →
      rankId.toUInt8.toNat < g.ranks.length →
      (∀ m∈g.members, m.rankId.toNat+1≠g.ranks.length) ∧
      (rankId.toUInt8=GR_GUILDMASTER → ∀ info, g.ranks[1]?=some info → info.rights=GR_RIGHT_ALL)
  | .switchRank player rankId up =>
    player=g.leaderGuid → rankId.toUInt8.toNat < GUILD_RANKS_MAX_COUNT →
      ¬(rankId.toUInt8=GR_GUILDMASTER ∧ up=true) → rankId.toUInt8≠getLowestRankId g →
      rankId.toUInt8.toNat+1 < g.ranks.length ∧
      (if up then 2 ≤ rankId.toUInt8.toNat else 1 ≤ rankId.toUInt8.toNat)
  | .byMember player (.setMemberRank targetGuid rank) =>
    ∀ t, getMember g (GUID_LOPART targetGuid)=some t → t.guid≠player →
      hasRankRight g player (setMemberRankRight t rank)=true →
      rank.toUInt8.toNat < g.ranks.length ∧ (rank.toUInt8=GR_GUILDMASTER ↔ t.guid=g.leaderGuid)
  | .setNewGuildMaster player name =>
    isLeader g player=true → ∀ old new, getMember g player=some old →
      getMemberByName g name=some new → new.guid≠old.guid ∧ GR_INITIATE.toNat < g.ranks.length
  | .addMember guid _ rankId refused =>
    refused=false → getMember g guid=none →
      rankId=GUILD_RANK_NONE ∨ rankId≠GR_GUILDMASTER ∧ rankId.toNat < g.ranks.length
  | .addNewRank _ _ | .byMember _ _ | .rehash _ => True

/-- The contents of a rank under another id. -/
def renumber (i : ℕ) (info : RankInfo) : RankInfo :=
  ⟨UInt8.ofNat i,info.name,info.rights,info.bankMoneyPerDay⟩

/-- The loop that removes a rank moves every later rank one place down under
its new id. -/
theorem shiftRanks_spec {rankSize n k : ℕ} {ranks : List RankInfo} (hlen : ranks.length=rankSize)
    (hmax : rankSize ≤ GUILD_RANKS_MAX_COUNT) (hn : rankSize ≤ k+n+1) :
    ∃ ranks', shiftRanks rankSize n k ranks=some ranks' ∧ ranks'.length=rankSize ∧
      ∀ i, ranks'[i]?=
        if k ≤ i ∧ i+1 < rankSize then (ranks[i+1]?).map (renumber i) else ranks[i]? := by
  induction n generalizing k ranks with
  | zero =>
    refine ⟨ranks,rfl,hlen,fun i => ?_⟩
    rw [if_neg (by omega)]
  | succ n ih =>
    unfold shiftRanks
    by_cases hk : k+1 < rankSize
    · have hget := List.getElem?_eq_getElem (l := ranks) (i := k+1) (by omega)
      rw [if_pos ⟨hk,by omega⟩,hget]
      obtain ⟨ranks',hshift,hlen',hget'⟩ := @ih (k+1) (ranks.set k (renumber k ranks[k+1]))
        (by rw [List.length_set,hlen]) (by omega)
      refine ⟨ranks',hshift,hlen',fun i => ?_⟩
      rw [hget',List.getElem?_set,List.getElem?_set]
      by_cases hi : i=k
      · subst hi
        rw [if_neg (by omega),if_pos rfl,if_pos (by omega),if_pos ⟨le_rfl,hk⟩,hget]
        rfl
      · rw [if_neg (by omega : ¬k=i)]
        by_cases hin : k ≤ i ∧ i+1 < rankSize
        · rw [if_pos hin,if_pos (by omega),if_neg (by omega)]
        · rw [if_neg hin,if_neg (by omega)]
    · refine ⟨ranks,if_neg (by omega),hlen,fun i => ?_⟩
      rw [if_neg (by omega)]

namespace Structured

variable {g : Guild}

theorem toNat_size (hs : Structured g) : (getRanksSize g).toNat=g.ranks.length := by
  have hmax := hs.max
  simp only [GUILD_RANKS_MAX_COUNT] at hmax
  rw [toNat_getRanksSize]
  omega

theorem toNat_lowest (hs : Structured g) : (getLowestRankId g).toNat=g.ranks.length-1 := by
  have hsize := hs.toNat_size
  have hmin := hs.min
  simp only [GUILD_RANKS_MIN_COUNT] at hmin
  have hone : (1 : UInt8) ≤ getRanksSize g := UInt8.le_iff_toNat_le.mpr (by
    simp only [UInt8.toNat_one]
    omega)
  have hlow : (getRanksSize g-1).toNat=(getRanksSize g).toNat-1 := UInt8.toNat_sub_of_le _ _ hone
  rw [←hsize,←hlow]
  rfl

theorem isLeader_guid (hs : Structured g) {player : UInt32} {m : Member}
    (h : isLeader g player=true) (hm : getMember g player=some m) : m.guid=g.leaderGuid := by
  obtain ⟨hmem,hguid⟩ := getMember_eq_some.mp hm
  unfold isLeader at h
  split at h
  · rename_i hp
    exact hguid.trans hp
  · rw [hm] at h
    exact (hs.alone m hmem).mp (beq_iff_eq.mp h)

/-- A change of one member's rank to an existing one, to the highest for the
leader and for nobody else. -/
theorem changeRank (hs : Structured g) {guid : UInt32} {r : UInt8} (hr : r.toNat < g.ranks.length)
    (hmaster : r=GR_GUILDMASTER ↔ guid=g.leaderGuid) : Structured (changeRank g guid r) where
  ids := hs.ids
  min := hs.min
  max := hs.max
  exist m' hm' := by
    obtain ⟨m,hm,-,hrank⟩ := mem_changeRank hm'
    rw [hrank]
    split
    · exact hr
    · exact hs.exist m hm
  leader := by
    obtain ⟨m,hm,hguid⟩ := hs.leader
    obtain ⟨m',hm',hkey⟩ := exists_mem_changeRank hm guid r
    exact ⟨m',hm',hkey.trans hguid⟩
  alone m' hm' := by
    obtain ⟨m,hm,hkey,hrank⟩ := mem_changeRank hm'
    rw [hrank,hkey]
    split
    · rename_i hguid
      exact hguid ▸ hmaster
    · exact hs.alone m hm
  rights := hs.rights

theorem eraseMember (hs : Structured g) {guid : UInt32} (hne : guid≠g.leaderGuid) :
    Structured (eraseMember g guid) where
  ids := hs.ids
  min := hs.min
  max := hs.max
  exist m hm := hs.exist m (List.mem_filter.mp hm).1
  leader := by
    obtain ⟨m,hm,hguid⟩ := hs.leader
    refine ⟨m,List.mem_filter.mpr ⟨hm,?_⟩,hguid⟩
    rw [hguid,bne_iff_ne]
    exact hne.symm
  alone m hm := hs.alone m (List.mem_filter.mp hm).1
  rights := hs.rights

/-- One rank more, if there is room. -/
theorem createRank (hs : Structured g) (name : String) (rights : UInt32) :
    Structured (createRank g name rights) := by
  have hsize := hs.toNat_size
  have hmin := hs.min
  unfold GuildRankModel.createRank
  split
  · exact hs
  rename_i hroom
  simp only [GUILD_RANKS_MAX_COUNT,GUILD_RANKS_MIN_COUNT] at hroom hmin
  obtain ⟨first,hfirst,hall⟩ := hs.rights
  refine ⟨fun i info hi => ?_,?_,?_,fun m hm => ?_,hs.leader,hs.alone,first,?_,hall⟩
  · by_cases hlt : i < g.ranks.length
    · exact hs.ids i info (List.getElem?_append_left hlt ▸ hi)
    obtain ⟨hlen,rfl⟩ : i=g.ranks.length ∧
        (⟨getRanksSize g,name,rights,0⟩ : RankInfo)=info := by
      rw [List.getElem?_append_right (Nat.not_lt.mp hlt),List.getElem?_singleton] at hi
      split at hi
      · exact ⟨by omega,Option.some.inj hi⟩
      · cases hi
    rw [hlen]
    rfl
  · simp only [GUILD_RANKS_MIN_COUNT,List.length_append,List.length_singleton]
    omega
  · simp only [GUILD_RANKS_MAX_COUNT,List.length_append,List.length_singleton]
    omega
  · have hlt := hs.exist m hm
    simp only [List.length_append,List.length_singleton]
    omega
  · rw [List.getElem?_append_left (by omega)]
    exact hfirst

theorem addNewRank (hs : Structured g) (player : UInt32) (name : String) :
    Structured (handleAddNewRank g player name) := by
  unfold handleAddNewRank
  split
  · exact hs
  · split
    · exact hs.createRank name _
    · exact hs

/-- A new member gets an existing rank that is not the highest. -/
theorem addMember (hs : Structured g) {guid : UInt32} {name : String} {rankId : UInt8}
    {refused : Bool} (hb : Bounded g (.addMember guid name rankId refused)) :
    Structured (addMember g guid name rankId refused) := by
  have hlow := hs.toNat_lowest
  have hmin := hs.min
  simp only [GUILD_RANKS_MIN_COUNT] at hmin
  simp only [GuildRankModel.addMember]
  split
  · exact hs
  rename_i hjoin
  obtain ⟨hrefused,habsent⟩ := not_or.mp hjoin
  rw [Bool.not_eq_true] at hrefused
  rw [ne_eq,Classical.not_not] at habsent
  have hrank : ∀ r, r=(if rankId=GUILD_RANK_NONE then getLowestRankId g else rankId) →
      r≠GR_GUILDMASTER ∧ r.toNat < g.ranks.length := by
    rintro r rfl
    split
    · refine ⟨fun h => ?_,by omega⟩
      rw [h] at hlow
      simp only [GR_GUILDMASTER,UInt8.toNat_zero] at hlow
      omega
    · rename_i hnone
      exact (hb hrefused habsent).resolve_left hnone
  obtain ⟨hne,hlt⟩ := hrank _ rfl
  refine ⟨hs.ids,hs.min,hs.max,fun m hm => ?_,?_,fun m hm => ?_,hs.rights⟩
  · rcases List.mem_append.mp hm with hm | hm
    · exact hs.exist m hm
    · rw [List.mem_singleton.mp hm]
      exact hlt
  · obtain ⟨m,hm,hguid⟩ := hs.leader
    exact ⟨m,List.mem_append_left _ hm,hguid⟩
  · rcases List.mem_append.mp hm with hm | hm
    · exact hs.alone m hm
    rw [List.mem_singleton.mp hm]
    refine iff_of_false hne fun hguid => ?_
    obtain ⟨l,hl,hlguid⟩ := hs.leader
    have hfound := getMember_eq_some.mpr ⟨hl,hlguid.trans hguid.symm⟩
    cases habsent.symm.trans hfound

theorem rehash (hs : Structured g) (members : List Member) : Structured (rehash g members) := by
  unfold GuildRankModel.rehash
  split
  · rename_i hperm
    obtain ⟨m,hm,hguid⟩ := hs.leader
    exact ⟨hs.ids,hs.min,hs.max,fun m hm => hs.exist m (hperm.mem_iff.mp hm),
      ⟨m,hperm.mem_iff.mpr hm,hguid⟩,fun m hm => hs.alone m (hperm.mem_iff.mp hm),hs.rights⟩
  · exact hs

/-- The new master has the highest rank, and the old one an existing other rank. -/
theorem setNewGuildMaster (hs : Structured g) {player : UInt32} {name : String}
    (hb : Bounded g (.setNewGuildMaster player name)) :
    Structured (handleSetNewGuildMaster g player name) := by
  unfold handleSetNewGuildMaster
  by_cases hleader : isLeader g player=true
  · rw [hleader]
    simp only [Bool.not_true,Bool.false_eq_true,if_false]
    split
    · rename_i old new hold hnew
      obtain ⟨hne,hlen⟩ := hb hleader old new hold hnew
      have holdguid := hs.isLeader_guid hleader hold
      have hnewmem : new∈g.members := List.mem_of_find?_eq_some hnew
      have hmin := hs.min
      simp only [GUILD_RANKS_MIN_COUNT] at hmin
      have hmem : ∀ m'∈(GuildRankModel.changeRank (setLeaderGUID g new) old.guid
          GR_INITIATE).members, ∃ m∈g.members, m'.guid=m.guid ∧ m'.rankId=
            if m.guid=old.guid then GR_INITIATE
            else if m.guid=new.guid then GR_GUILDMASTER else m.rankId := by
        intro m' hm'
        obtain ⟨m1,hm1,hkey1,hrank1⟩ := mem_changeRank hm'
        obtain ⟨m,hm,hkey,hrank⟩ := mem_changeRank hm1
        exact ⟨m,hm,hkey1.trans hkey,by rw [hrank1,hkey,hrank]⟩
      refine ⟨hs.ids,hs.min,hs.max,fun m' hm' => ?_,?_,fun m' hm' => ?_,hs.rights⟩
      · obtain ⟨m,hm,-,hrank⟩ := hmem m' hm'
        rw [hrank]
        split
        · exact hlen
        · split
          · exact Nat.lt_of_lt_of_le Nat.zero_lt_two hmin
          · exact hs.exist m hm
      · obtain ⟨m1,hm1,hkey1⟩ := exists_mem_changeRank (g := {g with leaderGuid := new.guid}) hnewmem
          new.guid GR_GUILDMASTER
        obtain ⟨m2,hm2,hkey2⟩ := exists_mem_changeRank hm1 old.guid GR_INITIATE
        exact ⟨m2,hm2,hkey2.trans hkey1⟩
      · obtain ⟨m,hm,hkey,hrank⟩ := hmem m' hm'
        rw [hrank,hkey]
        split
        · rename_i hold'
          exact iff_of_false (by decide) fun h => hne (h.symm.trans hold')
        rename_i hold'
        split
        · rename_i hnew'
          exact iff_of_true rfl hnew'
        · rename_i hnew'
          exact iff_of_false (fun h => hold' (((hs.alone m hm).mp h).trans holdguid.symm)) hnew'
    · exact hs
  · rw [Bool.eq_false_iff.mpr hleader]
    exact hs

/-- One step up or down, between the checks of the handler, needs no bound. -/
theorem updateMemberRank (hs : Structured g) (player : UInt32) (guid : UInt64) (demote : Bool) :
    Structured (handle g player (.updateMemberRank guid demote)) := by
  have hlow := hs.toNat_lowest
  have hmax := hs.max
  simp only [GUILD_RANKS_MAX_COUNT] at hmax
  cases ha : getMember g player with
  | none => exact (handle_absent _ (Or.inl ha)).symm ▸ hs
  | some a =>
    cases ht : getMember g (GUID_LOPART guid) with
    | none => exact (handle_absent (.updateMemberRank guid demote) (Or.inr ht)).symm ▸ hs
    | some t =>
      obtain ⟨htmem,-⟩ := getMember_eq_some.mp ht
      obtain ⟨hamem,-⟩ := getMember_eq_some.mp ha
      have hta := hs.exist a hamem
      have htt := hs.exist t htmem
      rcases handle_settles (.updateMemberRank guid demote) ha ht with
        ⟨-,hacc,heq⟩ | ⟨-,heq⟩
      · rw [heq]
        have hbelow : 0 < t.rankId.toNat := by
          cases demote with
          | true => exact Nat.zero_lt_of_lt (UInt8.lt_iff_toNat_lt.mp hacc.2.1)
          | false => exact Nat.zero_lt_of_lt (UInt8.lt_iff_toNat_lt.mp hacc.2)
        have hnotleader : t.guid≠g.leaderGuid := fun h => by
          rw [(hs.alone t htmem).mpr h] at hbelow
          exact absurd hbelow (Nat.lt_irrefl 0)
        have hrank : 0 < (if demote then t.rankId+1 else t.rankId-1).toNat ∧
            (if demote then t.rankId+1 else t.rankId-1).toNat < g.ranks.length := by
          cases demote with
          | true =>
            have hlt := UInt8.lt_iff_toNat_lt.mp hacc.2.2
            have hnext := UInt8.toNat_add t.rankId 1
            simp only [UInt8.toNat_one] at hnext
            simp only [if_true]
            omega
          | false =>
            have hlt := UInt8.lt_iff_toNat_lt.mp hacc.2
            have hnext := UInt8.toNat_add a.rankId 1
            have hprev : (t.rankId-1).toNat=t.rankId.toNat-1 :=
              UInt8.toNat_sub_of_le _ _ (UInt8.le_iff_toNat_le.mpr hbelow)
            simp only [UInt8.toNat_one] at hnext
            simp only [Bool.false_eq_true,if_false]
            omega
        refine hs.changeRank hrank.2 (iff_of_false (fun h => ?_) hnotleader)
        rw [h] at hrank
        exact absurd hrank.1 (Nat.lt_irrefl 0)
      · rw [heq]
        exact hs

/-- An arbitrary rank is kept if it exists and is the highest for the leader alone. -/
theorem setMemberRank (hs : Structured g) {player : UInt32} {guid : UInt64} {rank : UInt32}
    (hb : Bounded g (.byMember player (.setMemberRank guid rank))) :
    Structured (handle g player (.setMemberRank guid rank)) := by
  cases ht : getMember g (GUID_LOPART guid) with
  | none => exact (handle_absent (.setMemberRank guid rank) (Or.inr ht)).symm ▸ hs
  | some t =>
    obtain ⟨-,hguid⟩ := getMember_eq_some.mp ht
    have hsettles : Settles g player t t (.setMemberRank guid rank) :=
      setMemberRank_settles rank ht
    rcases hsettles with ⟨hne,hacc,heq⟩ | ⟨-,heq⟩
    · obtain ⟨hlt,hmaster⟩ := hb t ht (fun h => hne (h.symm.trans hguid)) hacc
      rw [heq]
      exact hs.changeRank hlt hmaster
    · rw [heq]
      exact hs

/-- Only a member below the highest rank can be removed, which is not the leader. -/
theorem removeMember (hs : Structured g) (player : UInt32) (guid : UInt64) :
    Structured (handle g player (.removeMember guid)) := by
  cases ha : getMember g player with
  | none => exact (handle_absent _ (Or.inl ha)).symm ▸ hs
  | some a =>
    cases ht : getMember g (GUID_LOPART guid) with
    | none => exact (handle_absent (.removeMember guid) (Or.inr ht)).symm ▸ hs
    | some t =>
      obtain ⟨htmem,hguid⟩ := getMember_eq_some.mp ht
      rcases removeMember_settles ha ht with ⟨-,hacc,heq⟩ | ⟨-,heq⟩
      · have hne : GUID_LOPART guid≠g.leaderGuid := fun h =>
          hacc.2.1 ((hs.alone t htmem).mpr (hguid.trans h))
        have hother : g.leaderGuid.toUInt64≠guid := by
          rintro rfl
          exact hne (UInt32.toUInt32_toUInt64 g.leaderGuid)
        have hdelete : deleteMember g guid=GuildRankModel.eraseMember g (GUID_LOPART guid) := by
          simp only [deleteMember,hother,if_false]
        rw [heq]
        simp only [effect,hdelete]
        exact hs.eraseMember hne
      · rw [heq]
        exact hs

/-- Two existing ranks below the highest change places, and so do their members. -/
theorem mapSwitch (hs : Structured g) {r n : UInt8} (hr : 0 < r.toNat) (hn : 0 < n.toNat)
    (hrlen : r.toNat < g.ranks.length) (hnlen : n.toNat < g.ranks.length) (a b : RankInfo) :
    Structured (mapMembers {g with ranks := (g.ranks.set r.toNat
      ⟨r,b.name,b.rights,b.bankMoneyPerDay⟩).set n.toNat ⟨n,a.name,a.rights,a.bankMoneyPerDay⟩}
      (switchMember r n) (switchMember_guid r n)) := by
  obtain ⟨first,hfirst,hall⟩ := hs.rights
  have hrank : ∀ m, (switchMember r n m).rankId=
      if m.rankId=r then n else if m.rankId=n then r else m.rankId := by
    intro m
    unfold switchMember
    split
    · rfl
    · split <;> rfl
  have hzero : ∀ {k : UInt8}, 0 < k.toNat → k≠GR_GUILDMASTER := by
    rintro k hk rfl
    exact absurd hk (Nat.lt_irrefl 0)
  refine ⟨fun i info hi => ?_,?_,?_,fun m' hm' => ?_,?_,fun m' hm' => ?_,first,?_,hall⟩
  · simp only [mapMembers,List.getElem?_set,List.length_set] at hi
    split at hi
    · rename_i hin
      rw [←Option.some.inj hi,←hin,UInt8.ofNat_toNat]
    split at hi
    · rename_i hir
      rw [←Option.some.inj hi,←hir,UInt8.ofNat_toNat]
    · exact hs.ids i info hi
  · simp only [mapMembers,List.length_set]
    exact hs.min
  · simp only [mapMembers,List.length_set]
    exact hs.max
  · obtain ⟨m,hm,rfl⟩ := List.mem_map.mp hm'
    simp only [mapMembers,List.length_set]
    rw [hrank]
    split
    · exact hnlen
    · split
      · exact hrlen
      · exact hs.exist m hm
  · obtain ⟨m,hm,hguid⟩ := hs.leader
    exact ⟨_,List.mem_map_of_mem hm,(switchMember_guid r n m).trans hguid⟩
  · obtain ⟨m,hm,rfl⟩ := List.mem_map.mp hm'
    rw [hrank,switchMember_guid]
    refine Iff.trans ?_ (hs.alone m hm)
    split
    · rename_i h
      exact iff_of_false (hzero hn) (h ▸ hzero hr)
    split
    · rename_i h
      exact iff_of_false (hzero hr) (h ▸ hzero hn)
    · exact Iff.rfl
  · simp only [mapMembers,List.getElem?_set]
    rw [if_neg (by omega),if_neg (by omega)]
    exact hfirst

theorem switchRank (hs : Structured g) {player rankId : UInt32} {up : Bool}
    (hb : Bounded g (.switchRank player rankId up)) :
    ∃ g', handleGuildSwitchRankOpcode g player rankId up=some g' ∧ Structured g' := by
  unfold handleGuildSwitchRankOpcode GuildRankModel.switchRank
  by_cases hleader : player=g.leaderGuid
  · rw [if_neg (fun h => h hleader)]
    by_cases hmax : GUILD_RANKS_MAX_COUNT ≤ rankId.toUInt8.toNat
    · exact ⟨g,if_pos hmax,hs⟩
    by_cases hskip : (rankId.toUInt8=GR_GUILDMASTER ∧ up=true) ∨
        rankId.toUInt8=getLowestRankId g
    · rw [if_neg hmax,if_pos hskip]
      exact ⟨g,rfl,hs⟩
    obtain ⟨htop,hlow⟩ := not_or.mp hskip
    obtain ⟨hlen,hpos⟩ := hb hleader (Nat.lt_of_not_le hmax) htop hlow
    have hcount := hs.max
    simp only [GUILD_RANKS_MAX_COUNT] at hcount
    have hnext : 0 < rankId.toUInt8.toNat ∧
        0 < (if up then rankId.toUInt8-1 else rankId.toUInt8+1).toNat ∧
        (if up then rankId.toUInt8-1 else rankId.toUInt8+1).toNat < g.ranks.length := by
      cases up with
      | true =>
        simp only [if_true] at hpos ⊢
        have hprev : (rankId.toUInt8-1).toNat=rankId.toUInt8.toNat-1 :=
          UInt8.toNat_sub_of_le _ _ (UInt8.le_iff_toNat_le.mpr (Nat.le_of_succ_le hpos))
        omega
      | false =>
        simp only [Bool.false_eq_true,if_false] at hpos ⊢
        have hsucc := UInt8.toNat_add rankId.toUInt8 1
        simp only [UInt8.toNat_one] at hsucc
        omega
    obtain ⟨hr,hn,hnlen⟩ := hnext
    have hrlen : rankId.toUInt8.toNat < g.ranks.length := Nat.lt_of_succ_lt hlen
    rw [if_neg hmax,if_neg hskip]
    simp only [List.getElem?_eq_getElem hrlen,List.getElem?_eq_getElem hnlen]
    exact ⟨_,rfl,hs.mapSwitch hr hn hrlen hnlen _ _⟩
  · exact ⟨g,if_pos hleader,hs⟩

/-- Removal of a rank when nobody has the last one. -/
theorem delRank (hs : Structured g) {player rankId : UInt32}
    (hb : Bounded g (.delRank player rankId)) :
    ∃ g', handleGuildDelRankOpcode g player rankId=some g' ∧ Structured g' := by
  have hsize := hs.toNat_size
  have hmin := hs.min
  have hmax := hs.max
  simp only [handleGuildDelRankOpcode,handleRemoveRank,hsize]
  split
  · exact ⟨g,rfl,hs⟩
  rename_i hgo
  simp only [not_or,Nat.not_le,Bool.not_eq_false] at hgo
  obtain ⟨hfew,hlt,hleader⟩ := hgo
  obtain ⟨hlast,hfirst⟩ := hb hleader hfew hlt
  obtain ⟨ranks,hshift,hlen,hget⟩ := @shiftRanks_spec g.ranks.length g.ranks.length
    rankId.toUInt8.toNat g.ranks rfl hmax (by omega)
  rw [hshift]
  simp only [GUILD_RANKS_MIN_COUNT,GUILD_RANKS_MAX_COUNT] at hfew hmax
  have htake : ∀ i info, (ranks.take (g.ranks.length-1))[i]?=some info →
      i+1 < g.ranks.length ∧ ranks[i]?=some info := by
    intro i info hi
    rw [List.getElem?_take] at hi
    split at hi
    · exact ⟨by omega,hi⟩
    · cases hi
  have hcount : (ranks.take (g.ranks.length-1)).length=g.ranks.length-1 := by
    rw [List.length_take,hlen]
    omega
  refine ⟨_,rfl,fun i info hi => ?_,?_,?_,fun m hm => ?_,hs.leader,hs.alone,?_⟩
  · obtain ⟨hi,hinfo⟩ := htake i info hi
    rw [hget] at hinfo
    split at hinfo
    · obtain ⟨old,-,rfl⟩ := Option.map_eq_some_iff.mp hinfo
      rfl
    · exact hs.ids i info hinfo
  · dsimp only
    rw [hcount]
    exact Nat.le_sub_one_of_lt hfew
  · dsimp only
    rw [hcount]
    exact (Nat.sub_le _ _).trans hmax
  · have hexist := hs.exist m hm
    have hne := hlast m hm
    dsimp only
    rw [hcount]
    omega
  · have hzero : (ranks.take (g.ranks.length-1))[0]?=ranks[0]? := by
      rw [List.getElem?_take,if_pos (by omega)]
    dsimp only
    rw [hzero,hget]
    split
    · rename_i hin
      have hsecond := List.getElem?_eq_getElem (l := g.ranks) (i := 0+1) (by omega)
      have hfull := hfirst (UInt8.toNat_inj.mp (Nat.le_zero.mp hin.1)) _ hsecond
      rw [hsecond]
      exact ⟨_,rfl,hfull⟩
    · exact hs.rights

theorem apply (hs : Structured g) (op : GuildOp) (hb : Bounded g op) :
    ∃ g', apply g op=some g' ∧ Structured g' := by
  cases op with
  | addNewRank player name => exact ⟨_,rfl,hs.addNewRank player name⟩
  | delRank player rankId => exact hs.delRank hb
  | switchRank player rankId up => exact hs.switchRank hb
  | byMember player op =>
    refine ⟨_,rfl,?_⟩
    cases op with
    | updateMemberRank guid demote => exact hs.updateMemberRank player guid demote
    | setMemberRank guid rank => exact hs.setMemberRank hb
    | removeMember guid => exact hs.removeMember player guid
  | setNewGuildMaster player name => exact ⟨_,rfl,hs.setNewGuildMaster hb⟩
  | addMember guid name rankId refused => exact ⟨_,rfl,hs.addMember hb⟩
  | rehash members => exact ⟨_,rfl,hs.rehash members⟩

end Structured

/-- The default ranks. -/
def defaultRanks (names : Fin 5 → String) : List RankInfo :=
  [⟨0,names 0,GR_RIGHT_ALL,0⟩,⟨1,names 1,GR_RIGHT_ALL,0⟩,⟨2,names 2,0x43,0⟩,⟨3,names 3,0x43,0⟩,
    ⟨4,names 4,0x43,0⟩]

theorem create_ranks (leader : UInt32) (name : String) (names : Fin 5 → String) :
    (create leader name names).ranks=defaultRanks names := by
  rfl

theorem create_members (leader : UInt32) (name : String) (names : Fin 5 → String) :
    (create leader name names).members=[⟨leader,name,GR_GUILDMASTER⟩] := by
  rfl

theorem create_leaderGuid (leader : UInt32) (name : String) (names : Fin 5 → String) :
    (create leader name names).leaderGuid=leader := by
  rfl

/-- A guild with the default ranks has the structure. -/
theorem create_structured (leader : UInt32) (name : String) (names : Fin 5 → String) :
    Structured (create leader name names) := by
  constructor
  all_goals simp only [create_ranks,create_members,create_leaderGuid,List.mem_singleton,
    forall_eq,exists_eq_left]
  · intro i info hi
    match i,hi with
    | 0,hi | 1,hi | 2,hi | 3,hi | 4,hi => rw [←Option.some.inj hi]; rfl
    | i+5,hi => cases hi
  · exact (by decide : 2 ≤ 5)
  · exact (by decide : 5 ≤ 10)
  · exact (by decide : 0 < 5)
  · exact ⟨_,rfl,rfl⟩

/-- The bounds along a run: they are asked of every state that is reached. -/
def StepBounded (s : Option Guild) (op : GuildOp) : Prop := ∀ g∈s, Bounded g op

/-- Every run of bounded operations from a new guild stays in range and keeps
the structure. -/
theorem run_structured (leader : UInt32) (name : String) (names : Fin 5 → String)
    (ops : List GuildOp) (hb : Meets step StepBounded (some (create leader name names)) ops) :
    ∃ g, run step (some (create leader name names)) ops=some g ∧ Structured g := by
  refine run_invariant (I := fun s => ∃ g, s=some g ∧ Structured g) ?_
    ⟨_,rfl,create_structured leader name names⟩ hb
  rintro s op ⟨g,rfl,hs⟩ hop
  exact hs.apply op (hop g rfl)

/-- A run that adds a rank and a member and promotes the member. -/
theorem run_structured_promotion :
    ∃ g, run step (some (create 1 "a" fun _ => "")) [.addNewRank 1 "new",
      .addMember 2 "b" GUILD_RANK_NONE false,.byMember 1 (.updateMemberRank 2 false)]=some g ∧
      Structured g := by
  refine run_structured 1 "a" (fun _ => "") _ ⟨?_,?_,?_,trivial⟩
  · exact fun _ _ => trivial
  · exact fun _ _ _ _ => Or.inl rfl
  · exact fun _ _ => trivial

/-- Removed ranks leave an opcode that reads past the end and members without a
rank, the exchange of the two best ranks and a master who thrones himself leave
no master, and a packet sets a rank that does not exist. -/
theorem structure_breaks :
    (run step (some (create 1 "a" fun _ => "")) [.delRank 1 2,.delRank 1 2,.delRank 1 2,
      .switchRank 1 5 false]).isNone=true ∧
    (¬∃ g, run step (some (create 1 "a" fun _ => "")) [.addMember 2 "b" GUILD_RANK_NONE false,
      .delRank 1 4]=some g ∧ Structured g) ∧
    (¬∃ g, run step (some (create 1 "a" fun _ => "")) [.switchRank 1 1 true]=some g ∧
      Structured g) ∧
    (¬∃ g, run step (some (create 1 "a" fun _ => "")) [.setNewGuildMaster 1 "a"]=some g ∧
      Structured g) ∧
    ¬∃ g, run step (some (create 1 "a" fun _ => "")) [.addMember 2 "b" GUILD_RANK_NONE false,
      .byMember 1 (.setMemberRank 2 77)]=some g ∧ Structured g := by
  refine ⟨by decide,?_,?_,?_,?_⟩
  · rintro ⟨g,hg,hs⟩
    have hlt := hs.exist ⟨2,"b",4⟩ (by rw [←Option.some.inj hg]; decide)
    rw [←Option.some.inj hg] at hlt
    exact absurd hlt (by decide)
  · rintro ⟨g,hg,hs⟩
    have hiff := hs.alone ⟨1,"a",1⟩ (by rw [←Option.some.inj hg]; decide)
    rw [←Option.some.inj hg] at hiff
    exact absurd hiff (by decide)
  · rintro ⟨g,hg,hs⟩
    have hiff := hs.alone ⟨1,"a",4⟩ (by rw [←Option.some.inj hg]; decide)
    rw [←Option.some.inj hg] at hiff
    exact absurd hiff (by decide)
  · rintro ⟨g,hg,hs⟩
    have hlt := hs.exist ⟨2,"b",77⟩ (by rw [←Option.some.inj hg]; decide)
    rw [←Option.some.inj hg] at hlt
    exact absurd hlt (by decide)

end Projectnelth.GuildRankStructure
