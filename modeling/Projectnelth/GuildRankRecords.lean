import Mathlib
import Projectnelth.GuildRankStructure

/-!
# The complete records of guild ranks

A rank has, besides what it is called and what its members may do, its rights and withdrawals for
each bank tab. `_SwitchRank` and `HandleRemoveRank` build the rank in its new place by a
constructor that is not given the tabs, so these are empty then. And the lowest rank is not
switched at all, up as little as down.
-/

namespace Projectnelth.GuildRankRecords

open GuildRankModel

def GUILD_BANK_MAX_TABS : ℕ := 8

def TAB_UNDEFINED : UInt8 := 0xFF

structure GuildBankRightsAndSlots where
  tabId : UInt8
  rights : UInt8
  slots : UInt32
  deriving DecidableEq

/-- The entry of a tab that nothing was set for. -/
instance : Inhabited GuildBankRightsAndSlots := ⟨TAB_UNDEFINED,0,0⟩

/-- `RankInfo` with the tabs. -/
structure RankInfo extends GuildRankModel.RankInfo where
  /-- `m_bankTabRightsAndSlots`. -/
  bankTabRightsAndSlots : Fin GUILD_BANK_MAX_TABS → GuildBankRightsAndSlots

namespace RankInfo

/-- The constructor with id, name, rights and money. -/
def new (rankId : UInt8) (name : String) (rights money : UInt32) : RankInfo :=
  ⟨⟨rankId,name,rights,money⟩,fun _ => default⟩

/-- The constructor is given what another rank has. -/
def rebuilt (info : RankInfo) (rankId : UInt8) : RankInfo :=
  new rankId info.name info.rights info.bankMoneyPerDay

/-- The complete record, without the id: name, rights, daily money, and for each tab its rights
and withdrawals. -/
def contents (info : RankInfo) :
    String×UInt32×UInt32×(Fin GUILD_BANK_MAX_TABS → UInt8×UInt32) :=
  (info.name,info.rights,info.bankMoneyPerDay,fun tab =>
    ((info.bankTabRightsAndSlots tab).rights,(info.bankTabRightsAndSlots tab).slots))

/-- The rank has no rights and no withdrawals on any tab. -/
def NoTabs (info : RankInfo) : Prop :=
  ∀ tab,(info.bankTabRightsAndSlots tab).rights=0 ∧ (info.bankTabRightsAndSlots tab).slots=0

/-- The record that is built again is another one's exactly if that has no tabs and the rest is
the same. -/
theorem contents_rebuilt_iff (info other : RankInfo) (rankId : UInt8) :
    (info.rebuilt rankId).contents=other.contents ↔
      other.NoTabs ∧ info.name=other.name ∧ info.rights=other.rights ∧
        info.bankMoneyPerDay=other.bankMoneyPerDay := by
  constructor
  · intro h
    obtain ⟨hname,hrest⟩ := Prod.ext_iff.mp h
    obtain ⟨hrights,hrest⟩ := Prod.ext_iff.mp hrest
    obtain ⟨hmoney,htabs⟩ := Prod.ext_iff.mp hrest
    refine ⟨fun tab => ?_,hname,hrights,hmoney⟩
    obtain ⟨htabRights,hslots⟩ := Prod.ext_iff.mp (congrFun htabs tab)
    exact ⟨htabRights.symm,hslots.symm⟩
  · rintro ⟨htabs,hname,hrights,hmoney⟩
    exact Prod.ext hname (Prod.ext hrights (Prod.ext hmoney (funext fun tab =>
      Prod.ext (htabs tab).1.symm (htabs tab).2.symm)))

/-- A record that is built again stays what it is exactly if it has no tabs. -/
theorem contents_rebuilt_self_iff (info : RankInfo) (rankId : UInt8) :
    (info.rebuilt rankId).contents=info.contents ↔ info.NoTabs := by
  rw [contents_rebuilt_iff]
  exact and_iff_left ⟨rfl,rfl,rfl⟩

end RankInfo

/-- The part of `Guild` that ranks and members live in, the ranks with their tabs. -/
structure Guild where
  /-- `m_leaderGuid`. -/
  leaderGuid : UInt32
  /-- `m_ranks`. -/
  ranks : List RankInfo
  /-- `m_members` in the order of iteration. -/
  members : List Member
  nodup : (members.map Member.guid).Nodup

namespace Guild

/-- The guild without the tabs. -/
def plain (g : Guild) : GuildRankModel.Guild :=
  ⟨g.leaderGuid,g.ranks.map RankInfo.toRankInfo,g.members,g.nodup⟩

theorem nodup_switch (g : Guild) (rankId newRankId : UInt8) :
    ((g.members.map (switchMember rankId newRankId)).map Member.guid).Nodup := by
  have hkeys : (g.members.map (switchMember rankId newRankId)).map Member.guid=
      g.members.map Member.guid := by
    rw [List.map_map]
    exact List.map_congr_left fun m _ => switchMember_guid rankId newRankId m
  rw [hkeys]
  exact g.nodup

/-- Two ranks change places, and so do their members. -/
def switched (g : Guild) (rankId newRankId : UInt8) (a b : RankInfo) : Guild :=
  ⟨g.leaderGuid,(g.ranks.set rankId.toNat (b.rebuilt rankId)).set newRankId.toNat
    (a.rebuilt newRankId),g.members.map (switchMember rankId newRankId),
    g.nodup_switch rankId newRankId⟩

/-- The place above or below. -/
def neighbour (rankId : UInt8) (up : Bool) : UInt8 := if up then rankId-1 else rankId+1

def switchRank (g : Guild) (rankId : UInt8) (up : Bool) : Option Guild :=
  if GUILD_RANKS_MAX_COUNT ≤ rankId.toNat then some g
  else if (rankId=GR_GUILDMASTER ∧ up=true) ∨ rankId=getLowestRankId g.plain then some g
  else
    let newRankId := neighbour rankId up
    match g.ranks[rankId.toNat]?,g.ranks[newRankId.toNat]? with
    | some a,some b => some (g.switched rankId newRankId a b)
    | _,_ => none

/-- The loop of `HandleRemoveRank`. -/
def shiftRanks (rankSize : ℕ) : ℕ → ℕ → List RankInfo → Option (List RankInfo)
  | 0,_,ranks => some ranks
  | n+1,rankId,ranks =>
    if rankId+1 < rankSize ∧ rankId+1 < GUILD_RANKS_MAX_COUNT then
      match ranks[rankId+1]? with
      | none => none
      | some next =>
        shiftRanks rankSize n (rankId+1) (ranks.set rankId (next.rebuilt (UInt8.ofNat rankId)))
    else some ranks

def handleRemoveRank (g : Guild) (player : UInt32) (rankId : UInt8) : Option Guild :=
  let rankSize := (getRanksSize g.plain).toNat
  if rankSize ≤ GUILD_RANKS_MIN_COUNT ∨ rankSize ≤ rankId.toNat ∨ isLeader g.plain player=false then
    some g
  else (shiftRanks rankSize rankSize rankId.toNat g.ranks).map fun ranks =>
    {g with ranks := ranks.take (rankSize-1)}

/-- The complete record at a place. -/
def content (g : Guild) (i : ℕ) :
    Option (String×UInt32×UInt32×(Fin GUILD_BANK_MAX_TABS → UInt8×UInt32)) :=
  (g.ranks[i]?).map RankInfo.contents

/-- The ranks are numbered and within their limits. -/
structure Numbered (g : Guild) : Prop where
  ids : ∀ i info,g.ranks[i]?=some info → info.rankId=UInt8.ofNat i
  /-- Not fewer ranks than allowed. -/
  min : GUILD_RANKS_MIN_COUNT ≤ g.ranks.length
  /-- Not more ranks than allowed. -/
  max : g.ranks.length ≤ GUILD_RANKS_MAX_COUNT

/-- Two ranks have changed places: their complete records but for the ids and their members, and
nothing else. -/
structure Switched (g g' : Guild) (rankId newRankId : UInt8) : Prop where
  leader : g'.leaderGuid=g.leaderGuid
  members : g'.members=g.members.map (switchMember rankId newRankId)
  records : ∀ i,g'.content i=g.content (Equiv.swap rankId.toNat newRankId.toNat i)
  /-- The ids stay in their places. -/
  ids : ∀ i info,g'.ranks[i]?=some info → info.rankId=UInt8.ofNat i

/-- The state of a guild is the one of another. -/
structure Same (g g' : Guild) : Prop where
  leader : g'.leaderGuid=g.leaderGuid
  members : g'.members=g.members
  records : ∀ i,g'.content i=g.content i
  ids : ∀ i info,g'.ranks[i]?=some info → info.rankId=UInt8.ofNat i

variable {g : Guild} {r r' : UInt8} {a b : RankInfo} {up : Bool}

theorem getElem_switched (ha : g.ranks[r.toNat]?=some a) (hb : g.ranks[r'.toNat]?=some b)
    (i : ℕ) : (g.switched r r' a b).ranks[i]?=
      if i=r'.toNat then some (a.rebuilt r') else if i=r.toNat then some (b.rebuilt r)
      else g.ranks[i]? := by
  have hi := (List.getElem?_eq_some_iff.mp ha).1
  have hj := (List.getElem?_eq_some_iff.mp hb).1
  unfold switched
  dsimp only
  rw [List.getElem?_set,List.length_set,List.getElem?_set]
  by_cases h' : r'.toNat=i
  · rw [if_pos h',if_pos hj,if_pos h'.symm]
  rw [if_neg h',if_neg (Ne.symm h')]
  by_cases h : r.toNat=i
  · rw [if_pos h,if_pos hi,if_pos h.symm]
  · rw [if_neg h,if_neg (Ne.symm h)]

/-- The ids of a guild in which two ranks have changed places. -/
theorem ids_switched (hids : ∀ i info,g.ranks[i]?=some info → info.rankId=UInt8.ofNat i)
    (ha : g.ranks[r.toNat]?=some a) (hb : g.ranks[r'.toNat]?=some b) (i : ℕ) (info : RankInfo)
    (h : (g.switched r r' a b).ranks[i]?=some info) : info.rankId=UInt8.ofNat i := by
  rw [getElem_switched ha hb] at h
  split_ifs at h with hj hi
  · rw [hj,← Option.some.inj h,UInt8.ofNat_toNat]
    rfl
  · rw [hi,← Option.some.inj h,UInt8.ofNat_toNat]
    rfl
  · exact hids i info h

theorem map_switchMember_iff (hne : r≠r') {members : List Member} :
    members.map (switchMember r r')=members ↔ ∀ m∈members,m.rankId≠r ∧ m.rankId≠r' := by
  have hself : members.map (switchMember r r')=members ↔ ∀ m∈members,switchMember r r' m=m := by
    simpa using List.map_inj_left (l := members) (f := switchMember r r') (g := id)
  rw [hself]
  refine forall₂_congr fun m _ => ?_
  unfold switchMember
  by_cases h : m.rankId=r
  · rw [if_pos h]
    refine iff_of_false (fun heq => hne ?_) fun hand => hand.1 h
    rw [← h]
    exact (congrArg Member.rankId heq).symm
  · rw [if_neg h]
    by_cases h' : m.rankId=r'
    · rw [if_pos h']
      refine iff_of_false (fun heq => hne ?_) fun hand => hand.2 h'
      rw [← h']
      exact congrArg Member.rankId heq
    · rw [if_neg h']
      exact iff_of_true rfl ⟨h,h'⟩

theorem content_of_some {i : ℕ} {info : RankInfo} (h : g.ranks[i]?=some info) :
    g.content i=some info.contents := by
  unfold content
  rw [h]
  rfl

theorem content_switched (ha : g.ranks[r.toNat]?=some a) (hb : g.ranks[r'.toNat]?=some b)
    (i : ℕ) : (g.switched r r' a b).content i=
      if i=r'.toNat then some (a.rebuilt r').contents
      else if i=r.toNat then some (b.rebuilt r).contents else g.content i := by
  unfold content
  rw [getElem_switched ha hb]
  split_ifs <;> rfl

/-- Two ranks have changed places with all that they have exactly if they have no tabs. -/
theorem switched_iff (hnum : g.Numbered) (hne : r≠r') (ha : g.ranks[r.toNat]?=some a)
    (hb : g.ranks[r'.toNat]?=some b) :
    g.Switched (g.switched r r' a b) r r' ↔ a.NoTabs ∧ b.NoTabs := by
  have hplaces : r.toNat≠r'.toNat := fun h => hne (UInt8.toNat_inj.mp h)
  constructor
  · intro h
    have hr := h.records r.toNat
    have hr' := h.records r'.toNat
    rw [content_switched ha hb,if_neg hplaces,if_pos rfl,Equiv.swap_apply_left,
      content_of_some hb] at hr
    rw [content_switched ha hb,if_pos rfl,Equiv.swap_apply_right,content_of_some ha] at hr'
    exact ⟨(a.contents_rebuilt_self_iff r').mp (Option.some.inj hr'),
      (b.contents_rebuilt_self_iff r).mp (Option.some.inj hr)⟩
  · rintro ⟨hatabs,hbtabs⟩
    refine ⟨rfl,rfl,fun i => ?_,ids_switched hnum.ids ha hb⟩
    rw [content_switched ha hb]
    split_ifs with hj hi
    · rw [hj,Equiv.swap_apply_right,content_of_some ha,(a.contents_rebuilt_self_iff r').mpr hatabs]
    · rw [hi,Equiv.swap_apply_left,content_of_some hb,(b.contents_rebuilt_self_iff r).mpr hbtabs]
    · rw [Equiv.swap_apply_of_ne_of_ne hi hj]

/-- Two ranks have the same records and nobody is of them. -/
def Alike (g : Guild) (r r' : UInt8) : Prop :=
  g.content r.toNat=g.content r'.toNat ∧ ∀ m∈g.members,m.rankId≠r ∧ m.rankId≠r'

/-- A switch of two ranks leaves the guild as it was exactly if they are alike without tabs. -/
theorem same_switched_iff (hnum : g.Numbered) (hne : r≠r') (ha : g.ranks[r.toNat]?=some a)
    (hb : g.ranks[r'.toNat]?=some b) :
    g.Same (g.switched r r' a b) ↔ (a.NoTabs ∧ b.NoTabs) ∧ g.Alike r r' := by
  have hplaces : r.toNat≠r'.toNat := fun h => hne (UInt8.toNat_inj.mp h)
  constructor
  · intro h
    have hr := h.records r.toNat
    have hr' := h.records r'.toNat
    rw [content_switched ha hb,if_neg hplaces,if_pos rfl,content_of_some ha] at hr
    rw [content_switched ha hb,if_pos rfl,content_of_some hb] at hr'
    have hatabs := ((b.contents_rebuilt_iff a r).mp (Option.some.inj hr)).1
    have hbtabs := ((a.contents_rebuilt_iff b r').mp (Option.some.inj hr')).1
    refine ⟨⟨hatabs,hbtabs⟩,?_,(map_switchMember_iff hne).mp h.members⟩
    rw [content_of_some ha,content_of_some hb,← hr,(b.contents_rebuilt_self_iff r).mpr hbtabs]
  · rintro ⟨⟨hatabs,hbtabs⟩,hrecords,hmembers⟩
    refine ⟨rfl,(map_switchMember_iff hne).mpr hmembers,fun i => ?_,ids_switched hnum.ids ha hb⟩
    rw [content_of_some ha,content_of_some hb] at hrecords
    rw [content_switched ha hb]
    split_ifs with hj hi
    · rw [hj,content_of_some hb,(a.contents_rebuilt_self_iff r').mpr hatabs,hrecords]
    · rw [hi,content_of_some ha,(b.contents_rebuilt_self_iff r).mpr hbtabs,hrecords]
    · rfl

/-- A guild that is left as it is has two ranks in each other's places exactly if they are
alike. -/
theorem switched_self_iff (hnum : g.Numbered) (hne : r≠r') : g.Switched g r r' ↔ g.Alike r r' := by
  constructor
  · intro h
    refine ⟨?_,(map_switchMember_iff hne).mp h.members.symm⟩
    rw [h.records r.toNat,Equiv.swap_apply_left]
  · rintro ⟨hrecords,hmembers⟩
    refine ⟨rfl,((map_switchMember_iff hne).mpr hmembers).symm,fun i => ?_,hnum.ids⟩
    by_cases hi : i=r.toNat
    · rw [hi,Equiv.swap_apply_left,hrecords]
    by_cases hj : i=r'.toNat
    · rw [hj,Equiv.swap_apply_right,hrecords]
    · rw [Equiv.swap_apply_of_ne_of_ne hi hj]

theorem switchMember_switchMember (hne : r≠r') (m : Member) :
    switchMember r' r (switchMember r r' m)=m := by
  obtain ⟨guid,name,rank⟩ := m
  unfold switchMember
  by_cases h : rank=r
  · simp [h]
  · by_cases h' : rank=r'
    · simp [h',hne.symm]
    · simp [h,h']

/-- Two ranks without tabs that change places twice are where they were. -/
theorem same_switched_switched (hnum : g.Numbered) (hne : r≠r') (ha : g.ranks[r.toNat]?=some a)
    (hb : g.ranks[r'.toNat]?=some b) (hatabs : a.NoTabs) (hbtabs : b.NoTabs) :
    g.Same ((g.switched r r' a b).switched r' r (a.rebuilt r') (b.rebuilt r)) := by
  have hplaces : r.toNat≠r'.toNat := fun h => hne (UInt8.toNat_inj.mp h)
  have ha' : (g.switched r r' a b).ranks[r'.toNat]?=some (a.rebuilt r') := by
    rw [getElem_switched ha hb,if_pos rfl]
  have hb' : (g.switched r r' a b).ranks[r.toNat]?=some (b.rebuilt r) := by
    rw [getElem_switched ha hb,if_neg hplaces,if_pos rfl]
  refine ⟨rfl,?_,fun i => ?_,ids_switched (ids_switched hnum.ids ha hb) ha' hb'⟩
  · show (g.members.map (switchMember r r')).map (switchMember r' r)=g.members
    rw [List.map_map]
    exact List.map_id'' (switchMember_switchMember hne) g.members
  · rw [content_switched ha' hb']
    split_ifs with hi hj
    · rw [hi,content_of_some ha]
      exact congrArg some ((a.contents_rebuilt_self_iff r).mpr hatabs)
    · rw [hj,content_of_some hb]
      exact congrArg some ((b.contents_rebuilt_self_iff r').mpr hbtabs)
    · rw [content_switched ha hb,if_neg hj,if_neg hi]

/-- There is a rank in the place and in the one above or below. -/
def HasNeighbour (g : Guild) (rankId : UInt8) (up : Bool) : Prop :=
  rankId.toNat < g.ranks.length ∧
    if up then 0 < rankId.toNat else rankId.toNat+1 < g.ranks.length

theorem toNat_neighbour (hmax : g.ranks.length ≤ GUILD_RANKS_MAX_COUNT)
    (h : g.HasNeighbour r up) :
    (neighbour r up).toNat=(if up then r.toNat-1 else r.toNat+1) ∧
      (neighbour r up).toNat < g.ranks.length := by
  obtain ⟨hr,hnext⟩ := h
  unfold GUILD_RANKS_MAX_COUNT at hmax
  unfold neighbour
  cases up with
  | true =>
    rw [if_pos rfl] at hnext ⊢
    have hprev : (r-1).toNat=r.toNat-1 :=
      UInt8.toNat_sub_of_le _ _ (UInt8.le_iff_toNat_le.mpr hnext)
    exact ⟨hprev,by omega⟩
  | false =>
    rw [if_neg Bool.false_ne_true] at hnext ⊢
    have hsucc := UInt8.toNat_add r 1
    rw [UInt8.toNat_one] at hsucc
    exact ⟨by rw [if_neg Bool.false_ne_true]; omega,by omega⟩

theorem neighbour_neighbour (r : UInt8) (up : Bool) : neighbour (neighbour r up) (!up)=r := by
  cases up with
  | true => exact UInt8.sub_add_cancel r 1
  | false => exact UInt8.add_sub_cancel r 1

theorem HasNeighbour.back (hmax : g.ranks.length ≤ GUILD_RANKS_MAX_COUNT)
    (h : g.HasNeighbour r up) : g.HasNeighbour (neighbour r up) (!up) := by
  obtain ⟨hplace,hlt⟩ := toNat_neighbour hmax h
  obtain ⟨hr,hnext⟩ := h
  refine ⟨hlt,?_⟩
  cases up with
  | true =>
    simp only [if_true] at hplace hnext
    simp only [Bool.not_true,Bool.false_eq_true,if_false]
    omega
  | false =>
    simp only [Bool.false_eq_true,if_false] at hplace hnext
    simp only [Bool.not_false,if_true]
    omega

theorem switchRank_lowest (h : r=getLowestRankId g.plain) : g.switchRank r up=some g := by
  unfold switchRank
  by_cases hmax : GUILD_RANKS_MAX_COUNT ≤ r.toNat
  · exact if_pos hmax
  · rw [if_neg hmax,if_pos (Or.inr h)]

/-- Any other rank is, where there is one above or below. -/
theorem switchRank_eq (hmax : g.ranks.length ≤ GUILD_RANKS_MAX_COUNT) (h : g.HasNeighbour r up)
    (hlowest : r≠getLowestRankId g.plain) (ha : g.ranks[r.toNat]?=some a)
    (hb : g.ranks[(neighbour r up).toNat]?=some b) :
    g.switchRank r up=some (g.switched r (neighbour r up) a b) := by
  have hskip : ¬((r=GR_GUILDMASTER ∧ up=true) ∨ r=getLowestRankId g.plain) := by
    rintro (⟨rfl,rfl⟩ | hlow)
    · exact absurd h.2 (lt_irrefl 0)
    · exact hlowest hlow
  unfold switchRank
  rw [if_neg (not_le.mpr (h.1.trans_le hmax)),if_neg hskip]
  dsimp only
  rw [ha,hb]

theorem length_switched (r r' : UInt8) (a b : RankInfo) :
    (g.switched r r' a b).ranks.length=g.ranks.length := by
  unfold switched
  rw [List.length_set,List.length_set]

theorem lowest_switched (r r' : UInt8) (a b : RankInfo) :
    getLowestRankId (g.switched r r' a b).plain=getLowestRankId g.plain := by
  unfold getLowestRankId plain switched
  simp

theorem Alike.symm (h : g.Alike r r') : g.Alike r' r := ⟨h.1.symm,fun m hm => (h.2 m hm).symm⟩

/-- A switch does all that it is to do: the two ranks change places with their members, and the
opposite switch takes this back. -/
def SwitchRight (g : Guild) (r : UInt8) (up : Bool) : Prop :=
  ∃ g' g'',g.switchRank r up=some g' ∧ g.Switched g' r (neighbour r up) ∧
    g'.switchRank (neighbour r up) (!up)=some g'' ∧ g.Same g''

/-- The ranks of two neighbouring places have no tabs, and neither is the lowest one unless they
are alike. -/
def Switchable (g : Guild) (r r' : UInt8) : Prop :=
  (∀ info,g.ranks[r.toNat]?=some info ∨ g.ranks[r'.toNat]?=some info → info.NoTabs) ∧
    (r≠getLowestRankId g.plain ∧ r'≠getLowestRankId g.plain ∨ g.Alike r r')

theorem switchRight_iff (hnum : g.Numbered) (h : g.HasNeighbour r up) :
    g.SwitchRight r up ↔ g.Switchable r (neighbour r up) := by
  obtain ⟨hplace,hlt⟩ := toNat_neighbour hnum.max h
  obtain ⟨a,ha⟩ : ∃ a,g.ranks[r.toNat]?=some a := ⟨_,List.getElem?_eq_getElem h.1⟩
  obtain ⟨b,hb⟩ : ∃ b,g.ranks[(neighbour r up).toNat]?=some b :=
    ⟨_,List.getElem?_eq_getElem hlt⟩
  have hne : r≠neighbour r up := by
    intro heq
    rw [← heq] at hplace
    have hnext := h.2
    cases up with
    | true => simp only [if_true] at hplace hnext; omega
    | false => simp only [Bool.false_eq_true,if_false] at hplace; omega
  have htabs : (∀ info,g.ranks[r.toNat]?=some info ∨ g.ranks[(neighbour r up).toNat]?=some info →
      info.NoTabs) ↔ a.NoTabs ∧ b.NoTabs := by
    rw [ha,hb]
    constructor
    · exact fun hall => ⟨hall a (Or.inl rfl),hall b (Or.inr rfl)⟩
    · rintro ⟨hatabs,hbtabs⟩ info (hinfo | hinfo)
      · rwa [← Option.some.inj hinfo]
      · rwa [← Option.some.inj hinfo]
  have hback := neighbour_neighbour r up
  unfold SwitchRight Switchable
  rw [htabs]
  by_cases hlow : r=getLowestRankId g.plain
  · -- the switch is refused, and the opposite one is done
    have hnext : neighbour r up≠getLowestRankId g.plain := fun hnext => hne (hlow.trans hnext.symm)
    have hfirst : g.switchRank r up=some g := switchRank_lowest hlow
    have hsecond : g.switchRank (neighbour r up) (!up)=
        some (g.switched (neighbour r up) r b a) := by
      have heq := switchRank_eq hnum.max (h.back hnum.max) hnext hb
        (by rw [hback]; exact ha)
      rwa [hback] at heq
    constructor
    · rintro ⟨g',g'',hg',-,hg'',hsame⟩
      rw [← Option.some.inj (hfirst.symm.trans hg'),hsecond] at hg''
      rw [← Option.some.inj hg''] at hsame
      obtain ⟨⟨hbtabs,hatabs⟩,halike⟩ := (same_switched_iff hnum hne.symm hb ha).mp hsame
      exact ⟨⟨hatabs,hbtabs⟩,Or.inr halike.symm⟩
    · rintro ⟨⟨hatabs,hbtabs⟩,hinner | halike⟩
      · exact absurd hlow hinner.1
      · exact ⟨g,_,hfirst,(switched_self_iff hnum hne).mpr halike,hsecond,
          (same_switched_iff hnum hne.symm hb ha).mpr ⟨⟨hbtabs,hatabs⟩,halike.symm⟩⟩
  · have hfirst := switchRank_eq hnum.max h hlow ha hb
    by_cases hnext : neighbour r up=getLowestRankId g.plain
    · -- the switch is done, and the opposite one is refused
      have hsecond : (g.switched r (neighbour r up) a b).switchRank (neighbour r up) (!up)=
          some (g.switched r (neighbour r up) a b) :=
        switchRank_lowest (hnext.trans (lowest_switched r (neighbour r up) a b).symm)
      constructor
      · rintro ⟨g',g'',hg',-,hg'',hsame⟩
        rw [← Option.some.inj (hfirst.symm.trans hg'),hsecond] at hg''
        rw [← Option.some.inj hg''] at hsame
        exact ((same_switched_iff hnum hne ha hb).mp hsame).imp_right Or.inr
      · rintro ⟨htabs,hinner | halike⟩
        · exact absurd hnext hinner.2
        · exact ⟨_,_,hfirst,(switched_iff hnum hne ha hb).mpr htabs,hsecond,
            (same_switched_iff hnum hne ha hb).mpr ⟨htabs,halike⟩⟩
    · constructor
      · rintro ⟨g',g'',hg',hswitched,-⟩
        rw [← Option.some.inj (hfirst.symm.trans hg')] at hswitched
        exact ⟨(switched_iff hnum hne ha hb).mp hswitched,Or.inl ⟨hlow,hnext⟩⟩
      · rintro ⟨⟨hatabs,hbtabs⟩,-⟩
        have hlen := length_switched r (neighbour r up) a b (g := g)
        have hplaces : r.toNat≠(neighbour r up).toNat := fun heq => hne (UInt8.toNat_inj.mp heq)
        have ha' : (g.switched r (neighbour r up) a b).ranks[(neighbour r up).toNat]?=
            some (a.rebuilt (neighbour r up)) := by
          rw [getElem_switched ha hb,if_pos rfl]
        have hb' : (g.switched r (neighbour r up) a b).ranks[r.toNat]?=some (b.rebuilt r) := by
          rw [getElem_switched ha hb,if_neg hplaces,if_pos rfl]
        have hneighbour : (g.switched r (neighbour r up) a b).HasNeighbour (neighbour r up)
            (!up) := by
          unfold HasNeighbour
          rw [hlen]
          exact h.back hnum.max
        refine ⟨_,_,hfirst,(switched_iff hnum hne ha hb).mpr ⟨hatabs,hbtabs⟩,?_,
          same_switched_switched hnum hne ha hb hatabs hbtabs⟩
        have heq := switchRank_eq (hlen.trans_le hnum.max) hneighbour
          (fun heq => hnext (heq.trans (lowest_switched r (neighbour r up) a b)))
          ha' (by rw [hback]; exact hb')
        rwa [hback] at heq

/-- The loop of the removal builds every later rank again one place before. -/
theorem shiftRanks_spec {rankSize n k : ℕ} {ranks : List RankInfo} (hlen : ranks.length=rankSize)
    (hmax : rankSize ≤ GUILD_RANKS_MAX_COUNT) (hn : rankSize ≤ k+n+1) :
    ∃ ranks',shiftRanks rankSize n k ranks=some ranks' ∧ ranks'.length=rankSize ∧
      ∀ i,ranks'[i]?=
        if k ≤ i ∧ i+1 < rankSize then (ranks[i+1]?).map fun info => info.rebuilt (UInt8.ofNat i)
        else ranks[i]? := by
  induction n generalizing k ranks with
  | zero =>
    refine ⟨ranks,rfl,hlen,fun i => ?_⟩
    rw [if_neg (by omega)]
  | succ n ih =>
    unfold shiftRanks
    by_cases hk : k+1 < rankSize
    · obtain ⟨next,hnext⟩ : ∃ next,ranks[k+1]?=some next :=
        ⟨_,List.getElem?_eq_getElem (by omega)⟩
      rw [if_pos ⟨hk,by omega⟩,hnext]
      obtain ⟨ranks',hshift,hlen',hget⟩ := @ih (k+1) (ranks.set k (next.rebuilt (UInt8.ofNat k)))
        (by rw [List.length_set,hlen]) (by omega)
      refine ⟨ranks',hshift,hlen',fun i => ?_⟩
      rw [hget,List.getElem?_set,List.getElem?_set]
      by_cases hi : i=k
      · rw [hi,if_neg (by omega),if_pos rfl,if_pos (by omega),if_pos ⟨le_rfl,hk⟩,hnext]
        rfl
      rw [if_neg (Ne.symm hi)]
      by_cases hin : k ≤ i ∧ i+1 < rankSize
      · rw [if_pos hin,if_pos (by omega),if_neg (by omega)]
      · rw [if_neg hin,if_neg (by omega)]
    · rw [if_neg (by omega)]
      refine ⟨ranks,rfl,hlen,fun i => ?_⟩
      rw [if_neg (by omega)]

/-- A removal does all that it is to do: every later rank moves one place with all that it has. -/
def RemoveRight (g : Guild) (player : UInt32) (rankId : UInt8) : Prop :=
  ∃ g',g.handleRemoveRank player rankId=some g' ∧ g'.ranks.length+1=g.ranks.length ∧
    ∀ i,i+1 < g.ranks.length → g'.content i=g.content (if i < rankId.toNat then i else i+1)

theorem removeRight_iff (hnum : g.Numbered) {player : UInt32}
    (hmore : GUILD_RANKS_MIN_COUNT < g.ranks.length) (hr : r.toNat < g.ranks.length)
    (hleader : isLeader g.plain player=true) :
    g.RemoveRight player r ↔
      ∀ i,r.toNat < i → ∀ info,g.ranks[i]?=some info → info.NoTabs := by
  have hmax := hnum.max
  have hsize : (getRanksSize g.plain).toNat=g.ranks.length := by
    unfold getRanksSize plain
    rw [List.length_map]
    unfold GUILD_RANKS_MAX_COUNT at hmax
    exact Nat.mod_eq_of_lt (by omega)
  obtain ⟨ranks,hshift,hlen,hget⟩ := shiftRanks_spec (k := r.toNat) (n := g.ranks.length) rfl hmax
    (by omega)
  have hremoved : g.handleRemoveRank player r=
      some {g with ranks := ranks.take (g.ranks.length-1)} := by
    unfold handleRemoveRank
    dsimp only
    rw [hsize,if_neg (by rw [hleader]; simp; omega),hshift]
    rfl
  have hcontent : ∀ i,i+1 < g.ranks.length →
      ({g with ranks := ranks.take (g.ranks.length-1)} : Guild).content i=
        (ranks[i]?).map RankInfo.contents := by
    intro i hi
    unfold content
    dsimp only
    rw [List.getElem?_take,if_pos (by omega)]
  constructor
  · rintro ⟨g',hg',-,hrecords⟩ i hi info hinfo
    rw [← Option.some.inj (hremoved.symm.trans hg')] at hrecords
    have hlt := (List.getElem?_eq_some_iff.mp hinfo).1
    obtain ⟨j,rfl⟩ : ∃ j,i=j+1 := ⟨i-1,by omega⟩
    have hrecord := hrecords j hlt
    rw [hcontent j hlt,hget,if_pos ⟨by omega,hlt⟩,if_neg (by omega),content_of_some hinfo,hinfo]
      at hrecord
    exact (info.contents_rebuilt_self_iff _).mp (Option.some.inj hrecord)
  · intro htabs
    refine ⟨_,hremoved,?_,fun i hi => ?_⟩
    · dsimp only
      rw [List.length_take,hlen]
      omega
    · rw [hcontent i hi,hget]
      by_cases hlow : i < r.toNat
      · rw [if_pos hlow,if_neg (by omega)]
        rfl
      obtain ⟨info,hinfo⟩ : ∃ info,g.ranks[i+1]?=some info :=
        ⟨_,List.getElem?_eq_getElem hi⟩
      rw [if_neg hlow,if_pos ⟨by omega,hi⟩,content_of_some hinfo,hinfo]
      exact congrArg some ((info.contents_rebuilt_self_iff _).mpr
        (htabs (i+1) (by omega) info hinfo))

/-- A switch of two ranks moves their complete records, and the opposite switch moves them back,
exactly if they have no tabs, and neither is the lowest one unless they are alike. A removal moves
complete records exactly if the later ranks have no tabs. -/
theorem rank_moves_iff (g : Guild) (hnum : g.Numbered) :
    (∀ r up,g.HasNeighbour r up → (g.SwitchRight r up ↔ g.Switchable r (neighbour r up))) ∧
      ∀ player r,GUILD_RANKS_MIN_COUNT < g.ranks.length → r.toNat < g.ranks.length →
        isLeader g.plain player=true → (g.RemoveRight player r ↔
          ∀ i,r.toNat < i → ∀ info,g.ranks[i]?=some info → info.NoTabs) :=
  ⟨fun _ _ h => switchRight_iff hnum h,fun _ _ hmore hr hleader =>
    removeRight_iff hnum hmore hr hleader⟩

theorem nodup_sample :
    (([⟨7,"a",0⟩,⟨8,"b",1⟩] : List Member).map Member.guid).Nodup := by decide

/-- A guild of three ranks, of which the middle one has these tabs. -/
def sample (tabs : Fin GUILD_BANK_MAX_TABS → GuildBankRightsAndSlots) : Guild where
  leaderGuid := 7
  ranks := [RankInfo.new 0 "Guild Master" GR_RIGHT_ALL 0,⟨⟨1,"Officer",GR_RIGHT_ALL,100⟩,tabs⟩,
    RankInfo.new 2 "Initiate" GR_RIGHT_EMPTY 0]
  members := [⟨7,"a",0⟩,⟨8,"b",1⟩]
  nodup := nodup_sample

theorem numbered_sample (tabs : Fin GUILD_BANK_MAX_TABS → GuildBankRightsAndSlots) :
    (sample tabs).Numbered := by
  refine ⟨fun i info h => ?_,(by decide : 2 ≤ 3),(by decide : 3 ≤ 10)⟩
  obtain ⟨hi,rfl⟩ := List.getElem?_eq_some_iff.mp h
  have hlt : i < 3 := hi
  interval_cases i <;> rfl

theorem rank_moves_sample : (sample fun _ => default).SwitchRight 1 true ∧
    (sample fun _ => default).RemoveRight 7 1 := by
  obtain ⟨hswitch,hremove⟩ := rank_moves_iff (sample fun _ => default) (numbered_sample _)
  refine ⟨(hswitch 1 true ⟨by decide,by decide⟩).mpr ⟨?_,Or.inl ⟨by decide,by decide⟩⟩,
    (hremove 7 1 (by decide) (by decide) (by decide)).mpr ?_⟩
  · rintro info (hinfo | hinfo)
    · rw [← Option.some.inj hinfo]
      exact fun _ => ⟨rfl,rfl⟩
    · rw [← Option.some.inj hinfo]
      exact fun _ => ⟨rfl,rfl⟩
  · intro i hi info hinfo
    have hlt : i < 3 := (List.getElem?_eq_some_iff.mp hinfo).1
    obtain rfl : i=2 := by
      have hlow : 1 < i := hi
      omega
    rw [← Option.some.inj hinfo]
    exact fun _ => ⟨rfl,rfl⟩

/-- The officers may see the first tab and take ten items a day: neither a switch of their rank nor
the removal of the one above moves that along. -/
theorem tabs_lost :
    ¬∀ g : Guild,g.Numbered → (∀ r up,g.HasNeighbour r up → g.SwitchRight r up) ∧
      ∀ player r,GUILD_RANKS_MIN_COUNT < g.ranks.length → r.toNat < g.ranks.length →
        isLeader g.plain player=true → g.RemoveRight player r := by
  intro hall
  have hnum := numbered_sample fun tab => ⟨UInt8.ofNat tab,1,10⟩
  have hright := (switchRight_iff hnum ⟨by decide,by decide⟩).mp
    ((hall _ hnum).1 1 true ⟨by decide,by decide⟩)
  exact absurd (hright.1 _ (Or.inl rfl) ⟨0,by decide⟩).1 (by decide)

end Guild

end Projectnelth.GuildRankRecords
