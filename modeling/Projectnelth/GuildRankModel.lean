import Mathlib
import Projectnelth.ArraySizes

/-!
# Guild ranks and guild members

`Guild` keeps its ranks in the vector `m_ranks` and its members in a hash map
from low guid to member; a member names its rank by position. The guid of a
player is its low part, so members and the leader are named by it; a guid out
of a packet has all 64 bits and is looked up by its low part. Names, rights and
bank money are carried along; database statements, packets to clients and bank
tabs are left out. An access to `m_ranks` out of range gives `none`.
-/

namespace Projectnelth.GuildRankModel

def GUILD_RANKS_MIN_COUNT : ℕ := 2

def GUILD_RANKS_MAX_COUNT : ℕ := 10

def GUILD_RANK_NONE : UInt8 := 0xFF

def GR_GUILDMASTER : UInt8 := 0

def GR_INITIATE : UInt8 := 4

def GR_RIGHT_EMPTY : UInt32 := 0x40

def GR_RIGHT_GCHATLISTEN : UInt32 := GR_RIGHT_EMPTY ||| 0x1

def GR_RIGHT_GCHATSPEAK : UInt32 := GR_RIGHT_EMPTY ||| 0x2

def GR_RIGHT_REMOVE : UInt32 := GR_RIGHT_EMPTY ||| 0x20

def GR_RIGHT_PROMOTE : UInt32 := GR_RIGHT_EMPTY ||| 0x80

def GR_RIGHT_DEMOTE : UInt32 := GR_RIGHT_EMPTY ||| 0x100

def GR_RIGHT_ALL : UInt32 := 0x00DDFFBF

structure RankInfo where
  /-- `m_rankId`. -/
  rankId : UInt8
  /-- `m_name`. -/
  name : String
  /-- `m_rights`, a word the guild leader chooses. -/
  rights : UInt32
  /-- `m_bankMoneyPerDay`. -/
  bankMoneyPerDay : UInt32
  deriving DecidableEq

structure Member where
  /-- The key of the member, the low part of `m_guid`. -/
  guid : UInt32
  /-- `m_name`. -/
  name : String
  /-- `m_rankId`. -/
  rankId : UInt8
  deriving DecidableEq

/-- The part of `Guild` that ranks and members live in. -/
structure Guild where
  /-- `m_leaderGuid`. -/
  leaderGuid : UInt32
  /-- `m_ranks`. -/
  ranks : List RankInfo
  /-- `m_members` in the order of iteration. -/
  members : List Member
  nodup : (members.map Member.guid).Nodup

def GUID_LOPART (guid : UInt64) : UInt32 := guid.toUInt32

def getRanksSize (g : Guild) : UInt8 := UInt8.ofNat g.ranks.length

/-- `_GetLowestRankId`: the size is a `size_t`, so an empty vector gives 255. -/
def getLowestRankId (g : Guild) : UInt8 := UInt8.ofNat g.ranks.length-1

def getRankInfo (g : Guild) (rankId : UInt8) : Option RankInfo :=
  if rankId < getRanksSize g then g.ranks[rankId.toNat]? else none

def getRankRights (g : Guild) (rankId : UInt8) : UInt32 :=
  match getRankInfo g rankId with
  | some info => info.rights
  | none => 0

/-- `GetMember(guid)`. -/
def getMember (g : Guild) (guid : UInt32) : Option Member :=
  g.members.find? fun m => m.guid == guid

/-- `GetMember(name)`. -/
def getMemberByName (g : Guild) (name : String) : Option Member :=
  g.members.find? fun m => m.name == name

def hasRankRight (g : Guild) (player : UInt32) (right : UInt32) : Bool :=
  match getMember g player with
  | some member => getRankRights g member.rankId &&& right != GR_RIGHT_EMPTY
  | none => false

def isRankNotLower (member : Member) (rankId : UInt8) : Bool := decide (member.rankId ≤ rankId)

def isLeader (g : Guild) (player : UInt32) : Bool :=
  if player=g.leaderGuid then true
  else match getMember g player with
    | some member => member.rankId == GR_GUILDMASTER
    | none => false

/-- A change of members that leaves their keys alone. -/
def mapMembers (g : Guild) (f : Member → Member) (hf : ∀ m, (f m).guid=m.guid) : Guild where
  leaderGuid := g.leaderGuid
  ranks := g.ranks
  members := g.members.map f
  nodup := by
    have hkeys : (g.members.map f).map Member.guid=g.members.map Member.guid := by
      rw [List.map_map]
      exact List.map_congr_left fun m _ => hf m
    rw [hkeys]
    exact g.nodup

/-- `ChangeRank` on the member of a key. -/
def changeRank (g : Guild) (guid : UInt32) (newRank : UInt8) : Guild :=
  mapMembers g (fun m => if m.guid=guid then {m with rankId := newRank} else m) fun m => by
    split <;> rfl

def setLeaderGUID (g : Guild) (leader : Member) : Guild :=
  changeRank {g with leaderGuid := leader.guid} leader.guid GR_GUILDMASTER

/-- The search of `DeleteMember` for the new leader: the first member of the
best rank other than the one that goes. -/
def newLeader (lowguid : UInt32) : Option Member → List Member → Option Member
  | best,[] => best
  | best,m::ms =>
    if m.guid=lowguid then newLeader lowguid best ms
    else match best with
      | none => newLeader lowguid (some m) ms
      | some b => newLeader lowguid (some (if m.rankId < b.rankId then m else b)) ms

/-- `m_members.erase`. -/
def eraseMember (g : Guild) (guid : UInt32) : Guild where
  leaderGuid := g.leaderGuid
  ranks := g.ranks
  members := g.members.filter fun m => m.guid != guid
  nodup := g.nodup.sublist (List.filter_sublist.map Member.guid)

/-- `m_members[lowguid] = member` for a key that is not there yet. -/
def insertMember (g : Guild) (m : Member) (h : getMember g m.guid=none) : Guild where
  leaderGuid := g.leaderGuid
  ranks := g.ranks
  members := g.members++[m]
  nodup := by
    rw [List.map_append,List.map_singleton,List.nodup_append]
    refine ⟨g.nodup,List.nodup_singleton _,?_⟩
    intro a ha b hb hab
    obtain ⟨n,hn,rfl⟩ := List.mem_map.mp ha
    rw [List.mem_singleton.mp hb] at hab
    exact List.find?_eq_none.mp h n hn (beq_iff_eq.mpr hab)

/-- Another order of iteration, as after a rehash. -/
def rehash (g : Guild) (ms : List Member) : Guild :=
  if h : ms.Perm g.members then
    ⟨g.leaderGuid,g.ranks,ms,(h.map Member.guid).nodup_iff.mpr g.nodup⟩
  else g

/-- `DeleteMember` of one member from a guild that stays; without another
member to lead it the guild disbands, which deletes every member. -/
def deleteMember (g : Guild) (guid : UInt64) : Guild :=
  let lowguid := GUID_LOPART guid
  if g.leaderGuid.toUInt64=guid then
    match newLeader lowguid none g.members with
    | some leader => eraseMember (setLeaderGUID g leader) lowguid
    | none => ⟨g.leaderGuid,g.ranks,[],List.nodup_nil⟩
  else eraseMember g lowguid

def handleRemoveMember (g : Guild) (player : UInt32) (guid : UInt64) : Guild :=
  if !hasRankRight g player GR_RIGHT_REMOVE then g
  else match getMember g (GUID_LOPART guid) with
    | none => g
    | some member =>
      if member.rankId=GR_GUILDMASTER then g
      else match getMember g player with
        | none => g
        | some memberMe =>
          if isRankNotLower member memberMe.rankId then g else deleteMember g guid

/-- `HandleUpdateMemberRank`: one rank up or down. -/
def handleUpdateMemberRank (g : Guild) (player : UInt32) (guid : UInt64) (demote : Bool) : Guild :=
  if !hasRankRight g player (if demote then GR_RIGHT_DEMOTE else GR_RIGHT_PROMOTE) then g
  else match getMember g (GUID_LOPART guid),getMember g player with
    | some member,some memberMe =>
      if member.guid=player then g
      else if demote then
        if isRankNotLower member memberMe.rankId then g
        else if getLowestRankId g ≤ member.rankId then g
        else changeRank g member.guid (member.rankId+1)
      else if isRankNotLower member (memberMe.rankId+1) then g
      else changeRank g member.guid (member.rankId-1)
    | _,_ => g

/-- `SendGuildRanksUpdate`, of which the change of rank is kept: the `uint32`
out of the packet becomes the `uint8` argument of `ChangeRank`. -/
def sendGuildRanksUpdate (g : Guild) (member : Member) (rank : UInt32) : Guild :=
  changeRank g member.guid rank.toUInt8

/-- The right that `HandleSetMemberRank` asks for. -/
def setMemberRankRight (member : Member) (rank : UInt32) : UInt32 :=
  if member.rankId.toUInt32 < rank then GR_RIGHT_DEMOTE else GR_RIGHT_PROMOTE

def handleSetMemberRank (g : Guild) (player : UInt32) (targetGuid : UInt64) (rank : UInt32) :
    Guild :=
  match getMember g (GUID_LOPART targetGuid) with
  | none => g
  | some member =>
    if !hasRankRight g player (setMemberRankRight member rank) then g
    else if member.guid=player then g
    else sendGuildRanksUpdate g member rank

def createRank (g : Guild) (name : String) (rights : UInt32) : Guild :=
  if GUILD_RANKS_MAX_COUNT ≤ (getRanksSize g).toNat then g
  else {g with ranks := g.ranks++[⟨getRanksSize g,name,rights,0⟩]}

def handleAddNewRank (g : Guild) (player : UInt32) (name : String) : Guild :=
  if GUILD_RANKS_MAX_COUNT ≤ (getRanksSize g).toNat then g
  else if isLeader g player then createRank g name (GR_RIGHT_GCHATLISTEN ||| GR_RIGHT_GCHATSPEAK)
  else g

/-- The loop of `HandleRemoveRank`: `n` bounds the passes that are left, and
every rank takes over the contents of the next one under its own id. -/
def shiftRanks (rankSize : ℕ) : ℕ → ℕ → List RankInfo → Option (List RankInfo)
  | 0,_,ranks => some ranks
  | n+1,rankId,ranks =>
    if rankId+1 < rankSize ∧ rankId+1 < GUILD_RANKS_MAX_COUNT then
      match ranks[rankId+1]? with
      | none => none
      | some next =>
        shiftRanks rankSize n (rankId+1) (ranks.set rankId
          ⟨UInt8.ofNat rankId,next.name,next.rights,next.bankMoneyPerDay⟩)
    else some ranks

def handleRemoveRank (g : Guild) (player : UInt32) (rankId : UInt8) : Option Guild :=
  let rankSize := (getRanksSize g).toNat
  if rankSize ≤ GUILD_RANKS_MIN_COUNT ∨ rankSize ≤ rankId.toNat ∨ isLeader g player=false then some g
  else (shiftRanks rankSize rankSize rankId.toNat g.ranks).map fun ranks =>
    {g with ranks := ranks.take (rankSize-1)}

/-- `HandleGuildDelRankOpcode`: the `uint32` out of the packet becomes the
`uint8` argument. -/
def handleGuildDelRankOpcode (g : Guild) (player : UInt32) (rankId : UInt32) : Option Guild :=
  handleRemoveRank g player rankId.toUInt8

/-- The exchange of two ranks on a member. -/
def switchMember (rankId newRankId : UInt8) (m : Member) : Member :=
  if m.rankId=rankId then {m with rankId := newRankId}
  else if m.rankId=newRankId then {m with rankId := rankId} else m

theorem switchMember_guid (rankId newRankId : UInt8) (m : Member) :
    (switchMember rankId newRankId m).guid=m.guid := by
  unfold switchMember
  split
  · rfl
  · split <;> rfl

/-- `_SwitchRank`: two neighbouring ranks change places, and so do their members. -/
def switchRank (g : Guild) (rankId : UInt8) (up : Bool) : Option Guild :=
  if GUILD_RANKS_MAX_COUNT ≤ rankId.toNat then some g
  else if (rankId=GR_GUILDMASTER ∧ up=true) ∨ rankId=getLowestRankId g then some g
  else
    let newRankId := if up then rankId-1 else rankId+1
    match g.ranks[rankId.toNat]?,g.ranks[newRankId.toNat]? with
    | some a,some b =>
      let ranks := (g.ranks.set rankId.toNat ⟨rankId,b.name,b.rights,b.bankMoneyPerDay⟩).set
        newRankId.toNat ⟨newRankId,a.name,a.rights,a.bankMoneyPerDay⟩
      some (mapMembers {g with ranks := ranks} (switchMember rankId newRankId)
        (switchMember_guid rankId newRankId))
    | _,_ => none

/-- `HandleGuildSwitchRankOpcode`: only the leader may call, and the `uint32`
out of the packet becomes the `uint8` argument. -/
def handleGuildSwitchRankOpcode (g : Guild) (player : UInt32) (rankId : UInt32) (up : Bool) :
    Option Guild :=
  if player≠g.leaderGuid then some g else switchRank g rankId.toUInt8 up

def handleSetNewGuildMaster (g : Guild) (player : UInt32) (name : String) : Guild :=
  if !isLeader g player then g
  else match getMember g player,getMemberByName g name with
    | some oldGuildMaster,some newGuildMaster =>
      changeRank (setLeaderGUID g newGuildMaster) oldGuildMaster.guid GR_INITIATE
    | _,_ => g

/-- `AddMember`. A player who is in a guild is refused; `refused` stands for
being in another guild and for character data that does not load. -/
def addMember (g : Guild) (guid : UInt32) (name : String) (rankId : UInt8) (refused : Bool) :
    Guild :=
  let rank := if rankId=GUILD_RANK_NONE then getLowestRankId g else rankId
  if h : refused=true ∨ getMember g guid≠none then g
  else insertMember g ⟨guid,name,rank⟩ (by simpa using (not_or.mp h).2)

/-- `_CreateDefaultGuildRanks` with the rank names of the locale. -/
def createDefaultGuildRanks (g : Guild) (names : Fin 5 → String) : Guild :=
  let g := createRank g (names 0) GR_RIGHT_ALL
  let g := createRank g (names 1) GR_RIGHT_ALL
  let g := createRank g (names 2) (GR_RIGHT_GCHATLISTEN ||| GR_RIGHT_GCHATSPEAK)
  let g := createRank g (names 3) (GR_RIGHT_GCHATLISTEN ||| GR_RIGHT_GCHATSPEAK)
  createRank g (names 4) (GR_RIGHT_GCHATLISTEN ||| GR_RIGHT_GCHATSPEAK)

/-- `Guild::Create` with the leader as its first member. -/
def create (leader : UInt32) (name : String) (names : Fin 5 → String) : Guild :=
  addMember (createDefaultGuildRanks ⟨leader,[],[],List.nodup_nil⟩ names) leader name GR_GUILDMASTER false

/-- A member is found under its key, and nowhere else. -/
theorem getMember_eq_some {g : Guild} {guid : UInt32} {m : Member} :
    getMember g guid=some m ↔ m∈g.members ∧ m.guid=guid := by
  have hfound : ∀ {n : Member}, getMember g guid=some n → n∈g.members ∧ n.guid=guid := by
    intro n hn
    exact ⟨List.mem_of_find?_eq_some hn,beq_iff_eq.mp 
      (List.find?_some (p := fun m : Member => m.guid == guid) hn)⟩
  constructor
  · exact hfound
  rintro ⟨hm,rfl⟩
  have hsome : (getMember g m.guid).isSome :=
    List.find?_isSome.mpr ⟨m,hm,beq_self_eq_true m.guid⟩
  obtain ⟨n,hn⟩ := Option.isSome_iff_exists.mp hsome
  obtain ⟨hmem,hguid⟩ := hfound hn
  rw [hn,List.inj_on_of_nodup_map g.nodup hmem hm hguid]

/-- Looking up a member after a change of members. -/
theorem getMember_mapMembers (g : Guild) (f : Member → Member) (hf : ∀ m, (f m).guid=m.guid)
    (guid : UInt32) : getMember (mapMembers g f hf) guid=(getMember g guid).map f := by
  simp only [getMember,mapMembers,List.find?_map,Function.comp_def,hf]

theorem getMember_changeRank (g : Guild) (k : UInt32) (r : UInt8) (guid : UInt32) :
    getMember (changeRank g k r) guid=
      if guid=k then (getMember g guid).map fun m => {m with rankId := r}
      else getMember g guid := by
  rw [changeRank,getMember_mapMembers]
  cases h : getMember g guid with
  | none => simp only [Option.map_none,ite_self]
  | some m =>
    obtain ⟨-,rfl⟩ := getMember_eq_some.mp h
    split
    · rename_i hk
      simp only [Option.map_some,hk,if_true]
    · rename_i hk
      simp only [Option.map_some,hk,if_false]

theorem mem_changeRank {g : Guild} {k : UInt32} {r : UInt8} {m' : Member}
    (h : m'∈(changeRank g k r).members) :
    ∃ m∈g.members, m'.guid=m.guid ∧ m'.rankId=if m.guid=k then r else m.rankId := by
  obtain ⟨m,hm,rfl⟩ := List.mem_map.mp h
  refine ⟨m,hm,?_⟩
  split <;> exact ⟨rfl,rfl⟩

theorem exists_mem_changeRank {g : Guild} {m : Member} (h : m∈g.members) (k : UInt32) (r : UInt8) :
    ∃ m'∈(changeRank g k r).members, m'.guid=m.guid := by
  refine ⟨_,List.mem_map_of_mem h,?_⟩
  split <;> rfl

/-- Looking up a member after one went. -/
theorem getMember_eraseMember (g : Guild) (k guid : UInt32) :
    getMember (eraseMember g k) guid=if guid=k then none else getMember g guid := by
  refine Option.ext fun m => ?_
  rw [getMember_eq_some,eraseMember,List.mem_filter,bne_iff_ne]
  split
  · rename_i hk
    subst hk
    exact ⟨fun h => absurd h.2 h.1.2,fun h => by cases h⟩
  · rename_i hk
    rw [getMember_eq_some]
    exact ⟨fun h => ⟨h.1.1,h.2⟩,fun h => ⟨⟨h.1,h.2 ▸ hk⟩,h.2⟩⟩

/-- With a candidate, the search ends in a member that is no worse than the
candidate and than every member that stays. -/
theorem newLeader_some (lowguid : UInt32) (ms : List Member) (b : Member) :
    ∃ l, newLeader lowguid (some b) ms=some l ∧ (l=b ∨ l∈ms ∧ l.guid≠lowguid) ∧
      l.rankId ≤ b.rankId ∧ ∀ m∈ms, m.guid≠lowguid → l.rankId ≤ m.rankId := by
  induction ms generalizing b with
  | nil => exact ⟨b,rfl,Or.inl rfl,UInt8.le_refl _,fun m hm => absurd hm List.not_mem_nil⟩
  | cons m ms ih =>
    unfold newLeader
    split
    · rename_i hm
      obtain ⟨l,hl,hmem,hb,hbest⟩ := ih b
      refine ⟨l,hl,hmem.imp_right fun h => ⟨List.mem_cons_of_mem m h.1,h.2⟩,hb,fun n hn hne => ?_⟩
      rcases List.mem_cons.mp hn with rfl | hn
      · exact absurd hm hne
      · exact hbest n hn hne
    · rename_i hm
      obtain ⟨l,hl,hmem,hb,hbest⟩ := ih (if m.rankId < b.rankId then m else b)
      have hle : l.rankId ≤ m.rankId ∧ l.rankId ≤ b.rankId := by
        split at hb
        · rename_i hlt
          exact ⟨hb,UInt8.le_trans hb (UInt8.le_of_lt hlt)⟩
        · rename_i hge
          exact ⟨UInt8.le_trans hb (UInt8.not_lt.mp hge),hb⟩
      refine ⟨l,hl,?_,hle.2,fun n hn hne => ?_⟩
      · rcases hmem with hmem | hmem
        · split at hmem
          · exact Or.inr ⟨hmem ▸ List.mem_cons_self,hmem ▸ hm⟩
          · exact Or.inl hmem
        · exact Or.inr ⟨List.mem_cons_of_mem m hmem.1,hmem.2⟩
      · rcases List.mem_cons.mp hn with rfl | hn
        · exact hle.1
        · exact hbest n hn hne

/-- If another member stays, `DeleteMember` finds one of the best rank. -/
theorem newLeader_spec {lowguid : UInt32} {ms : List Member} {a : Member} (ha : a∈ms)
    (hne : a.guid≠lowguid) :
    ∃ l, newLeader lowguid none ms=some l ∧ l∈ms ∧ l.guid≠lowguid ∧
      ∀ m∈ms, m.guid≠lowguid → l.rankId ≤ m.rankId := by
  induction ms with
  | nil => exact absurd ha List.not_mem_nil
  | cons m ms ih =>
    unfold newLeader
    split
    · rename_i hm
      rcases List.mem_cons.mp ha with rfl | ha
      · exact absurd hm hne
      obtain ⟨l,hl,hmem,hlne,hbest⟩ := ih ha
      refine ⟨l,hl,List.mem_cons_of_mem m hmem,hlne,fun n hn hnne => ?_⟩
      rcases List.mem_cons.mp hn with rfl | hn
      · exact absurd hm hnne
      · exact hbest n hn hnne
    · rename_i hm
      obtain ⟨l,hl,hmem,hb,hbest⟩ := newLeader_some lowguid ms m
      refine ⟨l,hl,?_,?_,fun n hn hnne => ?_⟩
      · rcases hmem with rfl | hmem
        · exact List.mem_cons_self
        · exact List.mem_cons_of_mem m hmem.1
      · rcases hmem with rfl | hmem
        · exact hm
        · exact hmem.2
      · rcases List.mem_cons.mp hn with rfl | hn
        · exact hb
        · exact hbest n hn hnne

end Projectnelth.GuildRankModel
