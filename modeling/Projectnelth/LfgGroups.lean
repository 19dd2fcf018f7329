import Mathlib
import Projectnelth.LfgRoleCheck
import Projectnelth.LfgSearch

/-!
# Which members go together

Members fit if the dungeon has the places for their players, no player comes twice or ignores
another one, at most one of them is an LFG group and the players have roles to fill. For members
that want one dungeon this is what `CheckCompatibility` accepts, if they are several.
-/

namespace Projectnelth.LfgModel

open Role LfgCompatibility

/-- The players of the members. -/
def players (data : Guid → LfgQueueData) (members : List Guid) : List Guid :=
  members.flatMap fun guid => (data guid).roles.keys

/-- No player comes twice or ignores another one. -/
def Apart (mgr : LFGMgr) (keys : List Guid) : Prop :=
  keys.Nodup ∧ ∀ guid1∈keys,∀ guid2∈keys,guid1≠guid2 → mgr.HasIgnore guid1 guid2=false

/-- A role for each player, from a mask over the bits of the roles, within the limits. -/
structure Fills (data : Guid → LfgQueueData) (dungeon : LFGDungeonData) (members : List Guid)
    (choice : Guid → Role) : Prop where
  /-- The masks are over the bits of the roles and the leader. -/
  masked : ∀ guid∈members,∀ player∈(data guid).roles.keys,(data guid).roles.roles player < 16
  takes : ∀ guid∈members,∀ player∈(data guid).roles.keys,
    Takes ((data guid).roles.roles player) (choice player)
  /-- No role is chosen too often. -/
  limit : ∀ r,(players data members).countP (fun player => choice player=r) ≤
    (dungeon.required r).toNat

/-- The members can be in one group. -/
structure Fits (mgr : LFGMgr) (data : Guid → LfgQueueData) (dungeon : LFGDungeonData)
    (members : List Guid) : Prop where
  places : (players data members).length ≤ dungeon.GetMaxGroupSize.toNat
  /-- No player comes twice or ignores another one. -/
  apart : Apart mgr (players data members)
  groups : members.countP mgr.IsLfgGroup ≤ 1
  /-- Roles can be assigned. -/
  roles : ∃ choice,Fills data dungeon members choice

/-- The members make a group of the maximum size. -/
def FullGroup (mgr : LFGMgr) (data : Guid → LfgQueueData) (dungeon : LFGDungeonData)
    (members : List Guid) : Prop :=
  Fits mgr data dungeon members ∧
    (players data members).length=dungeon.GetMaxGroupSize.toNat

section

variable {mgr : LFGMgr} {data : Guid → LfgQueueData} {dungeon : LFGDungeonData}
variable {check members sub : List Guid}

theorem players_cons (data : Guid → LfgQueueData) (guid : Guid) (members : List Guid) :
    players data (guid::members)=(data guid).roles.keys++players data members :=
  List.flatMap_cons

theorem players_sublist (data : Guid → LfgQueueData) (h : sub.Sublist members) :
    (players data sub).Sublist (players data members) :=
  h.flatMap _

theorem Apart.sublist {keys others : List Guid} (h : Apart mgr keys)
    (hothers : others.Sublist keys) : Apart mgr others :=
  ⟨h.1.sublist hothers,fun guid1 h1 guid2 h2 =>
    h.2 guid1 (hothers.subset h1) guid2 (hothers.subset h2)⟩

theorem Apart.perm {keys others : List Guid} (h : Apart mgr keys) (hperm : keys.Perm others) :
    Apart mgr others :=
  ⟨hperm.nodup h.1,fun guid1 h1 guid2 h2 =>
    h.2 guid1 (hperm.mem_iff.mpr h1) guid2 (hperm.mem_iff.mpr h2)⟩

theorem Fits.sublist (h : Fits mgr data dungeon members) (hsub : sub.Sublist members) :
    Fits mgr data dungeon sub := by
  have hplayers := players_sublist data hsub
  obtain ⟨choice,hchoice⟩ := h.roles
  exact {
    places := hplayers.length_le.trans h.places
    apart := h.apart.sublist hplayers
    groups := hsub.countP_le.trans h.groups
    roles := ⟨choice,fun guid hguid => hchoice.masked guid (hsub.subset hguid),
      fun guid hguid => hchoice.takes guid (hsub.subset hguid),
      fun r => hplayers.countP_le.trans (hchoice.limit r)⟩ }

/-! ### The map of the players -/

/-- A key that is there stays in its place. -/
theorem insertKey_of_mem {guid : Guid} {keys : List Guid} (hsorted : keys.Pairwise (·<·))
    (h : guid∈keys) : insertKey guid keys=keys := by
  induction keys with
  | nil => exact absurd h List.not_mem_nil
  | cons x keys ih =>
    obtain ⟨hx,hkeys⟩ := List.pairwise_cons.mp hsorted
    unfold insertKey
    rcases List.mem_cons.mp h with rfl | h
    · rw [if_neg (lt_irrefl guid),if_pos rfl]
    · have hlt := hx guid h
      rw [if_neg hlt.not_gt,if_neg hlt.ne',ih hkeys h]

/-- A new key is added. -/
theorem perm_insertKey {guid : Guid} {keys : List Guid} (h : guid∉keys) :
    (insertKey guid keys).Perm (guid::keys) := by
  induction keys with
  | nil => exact List.Perm.refl _
  | cons x keys ih =>
    rw [List.mem_cons,not_or] at h
    unfold insertKey
    split_ifs with hlt heq
    · exact List.Perm.refl _
    · exact absurd heq h.1
    · exact ((ih h.2).cons x).trans (List.Perm.swap guid x keys)

/-- A player with the mask. -/
abbrev Entry := Guid×UInt8

/-- The players of the members with their masks. -/
def entries (data : Guid → LfgQueueData) (members : List Guid) : List Entry :=
  members.flatMap fun guid =>
    (data guid).roles.keys.map fun player => (player,(data guid).roles.roles player)

/-- A round of the loop over the players. -/
def joinPlayer (mgr : LFGMgr) (groles : LfgRolesMap) (entry : Entry) : LfgRolesMap :=
  if groles.keys.any fun other => entry.1 != other && mgr.HasIgnore entry.1 other then groles
  else groles.write entry.1 entry.2

theorem fst_entries (data : Guid → LfgQueueData) (members : List Guid) :
    (entries data members).map Prod.fst=players data members := by
  rw [entries,List.map_flatMap,players]
  congr 1
  funext guid
  rw [List.map_map]
  exact List.map_id _

theorem length_entries (data : Guid → LfgQueueData) (members : List Guid) :
    (entries data members).length=(players data members).length := by
  rw [← fst_entries,List.length_map]

theorem joinPlayers_eq (mgr : LFGMgr) (roles : LfgRolesMap) (keys : List Guid)
    (groles : LfgRolesMap) :
    joinPlayers mgr roles keys groles=
      (keys.map fun player => (player,roles.roles player)).foldl (joinPlayer mgr) groles := by
  induction keys generalizing groles with
  | nil => rfl
  | cons player keys ih =>
    rw [joinPlayers,List.map_cons,List.foldl_cons,joinPlayer]
    split
    · exact ih groles
    · exact ih _

/-- The loops over the members and their players are one loop over the entries. -/
theorem joinRoles_eq (mgr : LFGMgr) (data : Guid → LfgQueueData) (check : List Guid) :
    joinRoles mgr data check=(entries data check).foldl (joinPlayer mgr) LfgRolesMap.empty := by
  unfold joinRoles entries
  rw [List.foldl_flatMap]
  congr 1
  funext groles guid
  exact joinPlayers_eq mgr _ _ groles

/-- A round leaves the player out, or finds the player there, or adds the player. -/
theorem joinPlayer_cases (mgr : LFGMgr) (groles : LfgRolesMap) (entry : Entry) :
    ((∃ other∈groles.keys,entry.1≠other ∧ mgr.HasIgnore entry.1 other=true) ∧
        joinPlayer mgr groles entry=groles) ∨
      (entry.1∈groles.keys ∧ (joinPlayer mgr groles entry).keys=groles.keys) ∨
      (entry.1∉groles.keys ∧
        (∀ other∈groles.keys,mgr.HasIgnore entry.1 other=false) ∧
        joinPlayer mgr groles entry=groles.write entry.1 entry.2) := by
  unfold joinPlayer
  split_ifs with hany
  · obtain ⟨other,hother,hboth⟩ := List.any_eq_true.mp hany
    obtain ⟨hne,hignore⟩ := Bool.and_eq_true_iff.mp hboth
    exact Or.inl ⟨⟨other,hother,bne_iff_ne.mp hne,hignore⟩,rfl⟩
  · by_cases hmem : entry.1∈groles.keys
    · exact Or.inr (Or.inl ⟨hmem,insertKey_of_mem groles.sorted hmem⟩)
    refine Or.inr (Or.inr ⟨hmem,fun other hother => ?_,rfl⟩)
    by_contra hignore
    refine hany (List.any_eq_true.mpr ⟨other,hother,?_⟩)
    refine Bool.and_eq_true_iff.mpr ⟨bne_iff_ne.mpr ?_,Bool.of_not_eq_false hignore⟩
    rintro rfl
    exact hmem hother

/-- The loop adds at most one key in each round. -/
theorem length_join_le (mgr : LFGMgr) (list : List Entry) (groles : LfgRolesMap) :
    (list.foldl (joinPlayer mgr) groles).keys.length ≤ groles.keys.length+list.length := by
  induction list generalizing groles with
  | nil => exact le_rfl
  | cons entry list ih =>
    have hrest := ih (joinPlayer mgr groles entry)
    have hone : (joinPlayer mgr groles entry).keys.length ≤ groles.keys.length+1 := by
      rcases joinPlayer_cases mgr groles entry with ⟨-,heq⟩ | ⟨-,heq⟩ | ⟨hnew,-,heq⟩
      · rw [heq]
        omega
      · rw [heq]
        omega
      · rw [heq]
        exact (perm_insertKey hnew).length_eq.le
    rw [List.foldl_cons,List.length_cons]
    omega

/-- Where the loop has added a key in each round, the players are apart. -/
theorem apart_of_length (mgr : LFGMgr) {list : List Entry} {groles : LfgRolesMap}
    (happart : Apart mgr groles.keys)
    (hlength : (list.foldl (joinPlayer mgr) groles).keys.length=groles.keys.length+list.length) :
    Apart mgr (groles.keys++list.map Prod.fst) := by
  induction list generalizing groles with
  | nil =>
    rw [List.map_nil,List.append_nil]
    exact happart
  | cons entry list ih =>
    have hrest := length_join_le mgr list (joinPlayer mgr groles entry)
    rw [List.foldl_cons,List.length_cons] at hlength
    rcases joinPlayer_cases mgr groles entry with ⟨-,heq⟩ | ⟨-,heq⟩ | ⟨hnew,hignores,heq⟩
    · rw [heq] at hrest hlength
      omega
    · rw [heq] at hrest
      omega
    have hperm : (groles.write entry.1 entry.2).keys.Perm (entry.1::groles.keys) :=
      perm_insertKey hnew
    have hlonger : Apart mgr (entry.1::groles.keys) := by
      refine ⟨List.nodup_cons.mpr ⟨hnew,happart.1⟩,fun guid1 h1 guid2 h2 hne => ?_⟩
      rcases List.mem_cons.mp h1 with rfl | h1
      · rcases List.mem_cons.mp h2 with rfl | h2
        · exact absurd rfl hne
        · exact hignores guid2 h2
      · rcases List.mem_cons.mp h2 with rfl | h2
        · rw [mgr.HasIgnore_comm]
          exact hignores guid1 h1
        · exact happart.2 guid1 h1 guid2 h2 hne
    rw [heq] at hlength
    have hsize := hperm.length_eq
    rw [List.length_cons] at hsize
    refine (ih (hlonger.perm hperm.symm) (by omega)).perm ?_
    refine (hperm.append_right _).trans ?_
    rw [List.map_cons]
    exact List.perm_middle.symm

theorem join_of_apart {list : List Entry} {groles : LfgRolesMap}
    (happart : Apart mgr (groles.keys++list.map Prod.fst)) :
    (list.foldl (joinPlayer mgr) groles).keys.Perm (groles.keys++list.map Prod.fst) ∧
      (∀ guid,guid∉list.map Prod.fst →
        (list.foldl (joinPlayer mgr) groles).roles guid=groles.roles guid) ∧
      ∀ entry∈list,(list.foldl (joinPlayer mgr) groles).roles entry.1=entry.2 := by
  induction list generalizing groles with
  | nil =>
    rw [List.map_nil,List.append_nil]
    exact ⟨List.Perm.refl _,fun _ _ => rfl,fun _ hmem => absurd hmem List.not_mem_nil⟩
  | cons entry list ih =>
    rw [List.map_cons] at happart
    have hmiddle : (groles.keys++entry.1::list.map Prod.fst).Perm
        (entry.1::(groles.keys++list.map Prod.fst)) := List.perm_middle
    obtain ⟨hnodup,hignores⟩ := happart.perm hmiddle
    obtain ⟨hnew,-⟩ := List.nodup_cons.mp hnodup
    rw [List.mem_append,not_or] at hnew
    have hadds : joinPlayer mgr groles entry=groles.write entry.1 entry.2 := by
      rcases joinPlayer_cases mgr groles entry with
        ⟨⟨other,hother,hne,hignore⟩,-⟩ | ⟨hmem,-⟩ | ⟨-,-,heq⟩
      · rw [hignores entry.1 List.mem_cons_self other
          (List.mem_cons_of_mem _ (List.mem_append_left _ hother)) hne] at hignore
        cases hignore
      · exact absurd hmem hnew.1
      · exact heq
    have hperm : (groles.write entry.1 entry.2).keys.Perm (entry.1::groles.keys) :=
      perm_insertKey hnew.1
    have hkeys := hperm.append_right (list.map Prod.fst)
    obtain ⟨hrest,hothers,hmasks⟩ :=
      @ih (groles.write entry.1 entry.2) (happart.perm (hmiddle.trans hkeys.symm))
    rw [List.foldl_cons,List.map_cons,hadds]
    refine ⟨(hrest.trans hkeys).trans hmiddle.symm,fun guid hguid => ?_,fun other hother => ?_⟩
    · rw [List.mem_cons,not_or] at hguid
      rw [hothers guid hguid.2]
      exact Function.update_of_ne hguid.1 _ _
    · rcases List.mem_cons.mp hother with rfl | hother
      · rw [hothers other.1 hnew.2]
        exact Function.update_self _ _ _
      · exact hmasks other hother

theorem CheckGroupRoles_joinRoles (happart : Apart mgr (players data check))
    (hsome : players data check≠[]) (hlength : (players data check).length < 256) :
    (CheckGroupRoles (joinRoles mgr data check) dungeon).1=true ↔
      ∃ choice,Fills data dungeon check choice := by
  obtain ⟨hperm,-,hmasks⟩ := @join_of_apart mgr (entries data check) LfgRolesMap.empty (by
    rw [fst_entries]
    exact happart)
  rw [← joinRoles_eq] at hperm hmasks
  rw [fst_entries] at hperm
  have hkeys : (joinRoles mgr data check).keys.Perm (players data check) := hperm
  have hmask : ∀ guid∈check,∀ player∈(data guid).roles.keys,
      (joinRoles mgr data check).roles player=(data guid).roles.roles player := by
    intro guid hguid player hplayer
    exact hmasks (player,(data guid).roles.roles player)
      (List.mem_flatMap.mpr ⟨guid,hguid,List.mem_map.mpr ⟨player,hplayer,rfl⟩⟩)
  have hmem : ∀ guid∈check,∀ player∈(data guid).roles.keys,
      player∈(joinRoles mgr data check).keys := fun guid hguid player hplayer =>
    hkeys.mem_iff.mpr (List.mem_flatMap.mpr ⟨guid,hguid,hplayer⟩)
  rw [CheckGroupRoles_iff (fun hnil => hsome (List.perm_nil.mp (hnil ▸ hkeys).symm))
    (by rw [hkeys.length_eq]; exact hlength)]
  constructor
  · rintro ⟨hmasked,choice,hchoice⟩
    refine ⟨choice,fun guid hguid player hplayer => ?_,fun guid hguid player hplayer => ?_,
      fun r => ?_⟩
    · rw [← hmask guid hguid player hplayer]
      exact hmasked player (hmem guid hguid player hplayer)
    · rw [← hmask guid hguid player hplayer]
      exact hchoice.takes player (hmem guid hguid player hplayer)
    · rw [← hkeys.countP_eq]
      exact hchoice.limit r
  · rintro ⟨choice,hchoice⟩
    refine ⟨fun player hplayer => ?_,choice,fun player hplayer => ?_,fun r => ?_⟩
    · obtain ⟨guid,hguid,hplayer⟩ := List.mem_flatMap.mp (hkeys.mem_iff.mp hplayer)
      rw [hmask guid hguid player hplayer]
      exact hchoice.masked guid hguid player hplayer
    · obtain ⟨guid,hguid,hplayer⟩ := List.mem_flatMap.mp (hkeys.mem_iff.mp hplayer)
      rw [hmask guid hguid player hplayer]
      exact hchoice.takes guid hguid player hplayer
    · rw [hkeys.countP_eq]
      exact hchoice.limit r

/-! ### The judgement of members that want one dungeon -/

/-- The members have selected one dungeon. Each of them is a player or a group of players, so small
that the counter of the players does not run over. -/
structure Wants (mgr : LFGMgr) (data : Guid → LfgQueueData) (dungeon : LFGDungeonData)
    (members : List Guid) : Prop where
  selected : ∃ dungeonId,mgr.GetLFGDungeon dungeonId=some dungeon ∧
    ∀ guid∈members,(data guid).dungeons=[dungeonId]
  nonempty : ∀ guid∈members,(data guid).roles.keys≠[]
  /-- The places and one more member can be counted with eight bits. -/
  counted : ∀ guid∈members,
    (data guid).roles.keys.length+dungeon.GetMaxGroupSize.toNat < 256

theorem Wants.subset (h : Wants mgr data dungeon members) (hsub : sub ⊆ members) :
    Wants mgr data dungeon sub := by
  obtain ⟨dungeonId,hfound,hall⟩ := h.selected
  exact ⟨⟨dungeonId,hfound,fun guid hguid => hall guid (hsub hguid)⟩,
    fun guid hguid => h.nonempty guid (hsub hguid),fun guid hguid => h.counted guid (hsub hguid)⟩

theorem Wants.select (h : Wants mgr data dungeon check) (hsome : check≠[]) :
    ∃ dungeonId,selectDungeon mgr (commonDungeons data check).length (commonDungeons data check)=
      some (dungeonId,dungeon) := by
  obtain ⟨dungeonId,hfound,hall⟩ := h.selected
  have hcommon : commonDungeons data check=[dungeonId] := by
    cases check with
    | nil => exact absurd rfl hsome
    | cons front rest =>
      rw [commonDungeons,hall front List.mem_cons_self]
      have hrest : ∀ guid∈rest,(data guid).dungeons=[dungeonId] := fun guid hguid =>
        hall guid (List.mem_cons_of_mem front hguid)
      clear hall h hsome
      induction rest with
      | nil => rfl
      | cons guid rest ih =>
        rw [List.foldl_cons,hrest guid List.mem_cons_self,
          List.filter_eq_self.mpr fun id hid => decide_eq_true hid]
        exact ih fun other hother => hrest other (List.mem_cons_of_mem guid hother)
  refine ⟨dungeonId,?_⟩
  rw [hcommon,List.length_singleton,selectDungeon,List.length_singleton,Nat.mod_one]
  simp only [List.getElem?_cons_zero,hfound]

/-- The counters are right where the players and LFG groups are not too many, and over
their limits where they are. -/
theorem countPlayers_eq {maxSize : ℕ}
    (hsmall : ∀ guid∈check,(data guid).roles.keys.length+maxSize < 256)
    (numPlayers numLfgGroups : UInt8) :
    if numPlayers.toNat+(players data check).length ≤ maxSize ∧
        numLfgGroups.toNat+check.countP mgr.IsLfgGroup ≤ 1 then
      (countPlayers mgr data maxSize check numPlayers numLfgGroups).1.toNat=
          numPlayers.toNat+(players data check).length ∧
        (countPlayers mgr data maxSize check numPlayers numLfgGroups).2.toNat ≤ 1
    else maxSize < (countPlayers mgr data maxSize check numPlayers numLfgGroups).1.toNat ∨
      1 < (countPlayers mgr data maxSize check numPlayers numLfgGroups).2.toNat := by
  induction check generalizing numPlayers numLfgGroups with
  | nil =>
    show if numPlayers.toNat+0 ≤ maxSize ∧ numLfgGroups.toNat+0 ≤ 1 then
      numPlayers.toNat=numPlayers.toNat+0 ∧ numLfgGroups.toNat ≤ 1
      else maxSize < numPlayers.toNat ∨ 1 < numLfgGroups.toNat
    split_ifs
    · omega
    · omega
  | cons guid rest ih =>
    have hguid := hsmall guid List.mem_cons_self
    rw [players_cons,List.length_append,List.countP_cons]
    by_cases hgoes : numLfgGroups ≤ 1 ∧ numPlayers.toNat ≤ maxSize
    · have hround : countPlayers mgr data maxSize (guid::rest) numPlayers numLfgGroups=
          countPlayers mgr data maxSize rest
            (numPlayers+UInt8.ofNat (data guid).roles.keys.length)
            (if mgr.IsLfgGroup guid then numLfgGroups+1 else numLfgGroups) := by
        rw [countPlayers,if_pos]
        simpa using hgoes
      have hle : numLfgGroups.toNat ≤ 1 := UInt8.le_iff_toNat_le.mp hgoes.1
      have hplayers : (numPlayers+UInt8.ofNat (data guid).roles.keys.length).toNat=
          numPlayers.toNat+(data guid).roles.keys.length := by
        rw [UInt8.toNat_add,UInt8.toNat_ofNat']
        omega
      have hgroups : (if mgr.IsLfgGroup guid then numLfgGroups+1 else numLfgGroups).toNat=
          numLfgGroups.toNat+if mgr.IsLfgGroup guid then 1 else 0 := by
        split
        · rw [UInt8.toNat_add,UInt8.toNat_one]
          omega
        · rfl
      have hrest := ih (fun other hother => hsmall other (List.mem_cons_of_mem guid hother))
        (numPlayers+UInt8.ofNat (data guid).roles.keys.length)
        (if mgr.IsLfgGroup guid then numLfgGroups+1 else numLfgGroups)
      rw [hplayers,hgroups] at hrest
      rw [hround,show numPlayers.toNat+((data guid).roles.keys.length+(players data rest).length)=
        numPlayers.toNat+(data guid).roles.keys.length+(players data rest).length by omega,
        show numLfgGroups.toNat+(rest.countP mgr.IsLfgGroup+if mgr.IsLfgGroup guid then 1 else 0)=
        numLfgGroups.toNat+(if mgr.IsLfgGroup guid then 1 else 0)+
          rest.countP mgr.IsLfgGroup by omega]
      exact hrest
    · have hround : countPlayers mgr data maxSize (guid::rest) numPlayers numLfgGroups=
          (numPlayers,numLfgGroups) := by
        rw [countPlayers,if_neg]
        simpa using hgoes
      have hover : maxSize < numPlayers.toNat ∨ 1 < numLfgGroups.toNat := by
        by_contra hnot
        push Not at hnot
        exact hgoes ⟨UInt8.le_iff_toNat_le.mpr hnot.2,hnot.1⟩
      rw [hround,if_neg (by omega)]
      exact hover

/-- What is made of members that fit. -/
def complete (mgr : LFGMgr) (data : Guid → LfgQueueData) (dungeon : LFGDungeonData)
    (check : List Guid) : LfgCompatibility :=
  if (players data check).length≠dungeon.GetMaxGroupSize.toNat then
    LFG_COMPATIBLES_WITH_LESS_PLAYERS
  else if !mgr.AllQueued check then LFG_COMPATIBLES_BAD_STATES
  else LFG_COMPATIBLES_MATCH

theorem complete_compatible (mgr : LFGMgr) (data : Guid → LfgQueueData)
    (dungeon : LFGDungeonData) (check : List Guid) :
    (complete mgr data dungeon check).incompatible=false := by
  unfold complete
  split_ifs
  · rfl
  · rfl
  · rfl

theorem Wants.length_le (h : Wants mgr data dungeon members) :
    members.length ≤ (players data members).length := by
  induction members with
  | nil => exact le_rfl
  | cons guid members ih =>
    have hrest := ih (h.subset (List.subset_cons_self guid members))
    have hguid := List.length_pos_of_ne_nil (h.nonempty guid List.mem_cons_self)
    rw [players_cons,List.length_append,List.length_cons]
    omega

/-- Several members that fit pass all tests. -/
theorem judge_of_fits (hwants : Wants mgr data dungeon check) (hseveral : 1 < check.length)
    (h : Fits mgr data dungeon check) :
    (judge mgr data check).compatibility=complete mgr data dungeon check := by
  have hsome : check≠[] := List.ne_nil_of_length_pos (by omega)
  obtain ⟨dungeonId,hselect⟩ := hwants.select hsome
  have hmembers := hwants.length_le
  have hplaces := h.places
  have hsmall := hwants.counted (check.head hsome) (List.head_mem hsome)
  have hcount := @countPlayers_eq mgr data check _ hwants.counted 0 0
  rw [UInt8.toNat_zero,Nat.zero_add,Nat.zero_add,if_pos ⟨hplaces,h.groups⟩] at hcount
  obtain ⟨hplayers,hgroups⟩ := hcount
  have hjoined : (joinRoles mgr data check).keys.length=(players data check).length := by
    have hperm := (@join_of_apart mgr (entries data check) LfgRolesMap.empty (by
      rw [fst_entries]
      exact h.apart)).1
    rw [← joinRoles_eq,fst_entries] at hperm
    exact hperm.length_eq
  have hroles := (@CheckGroupRoles_joinRoles mgr data dungeon check h.apart
    (List.ne_nil_of_length_pos (by omega)) (by omega)).mpr h.roles
  unfold judge
  dsimp only
  rw [hselect]
  dsimp only
  generalize countPlayers mgr data dungeon.GetMaxGroupSize.toNat check 0 0=counted at hplayers hgroups ⊢
  have hsame : counted.1=UInt8.ofNat (joinRoles mgr data check).keys.length := by
    rw [hjoined,← hplayers,UInt8.ofNat_toNat]
  rw [decide_eq_true hseveral,if_pos rfl,if_neg (by omega),
    if_neg (fun hmany => absurd (UInt8.lt_iff_toNat_lt.mp hmany) (not_lt.mpr hgroups)),
    if_neg (by omega),Bool.true_and,Bool.true_and,if_neg (by rw [bne_iff_ne]; exact not_not.mpr hsame),
    hroles,if_neg (by decide),hplayers]
  unfold complete
  split_ifs
  · rfl
  · rfl
  · rfl

/-- Several members that pass the tests fit. -/
theorem fits_of_judge (hwants : Wants mgr data dungeon check) (hseveral : 1 < check.length)
    (h : (judge mgr data check).compatibility.incompatible=false) :
    Fits mgr data dungeon check := by
  have hsome : check≠[] := List.ne_nil_of_length_pos (by omega)
  obtain ⟨dungeonId,hselect⟩ := hwants.select hsome
  have hmembers := hwants.length_le
  have hsmall := hwants.counted (check.head hsome) (List.head_mem hsome)
  have hcount := @countPlayers_eq mgr data check _ hwants.counted 0 0
  rw [UInt8.toNat_zero,Nat.zero_add,Nat.zero_add] at hcount
  unfold judge at h
  dsimp only at h
  rw [hselect] at h
  dsimp only at h
  rw [decide_eq_true hseveral,if_pos rfl,Bool.true_and,Bool.true_and] at h
  generalize countPlayers mgr data dungeon.GetMaxGroupSize.toNat check 0 0=counted at hcount h
  have hsize : ¬dungeon.GetMaxGroupSize.toNat < check.length := by
    intro hover
    rw [if_pos hover] at h
    cases h
  rw [if_neg hsize] at h
  have hgroups : ¬1 < counted.2 := by
    intro hover
    rw [if_pos hover] at h
    cases h
  rw [if_neg hgroups] at h
  have hplaces : ¬dungeon.GetMaxGroupSize.toNat < counted.1.toNat := by
    intro hover
    rw [if_pos hover] at h
    cases h
  rw [if_neg hplaces] at h
  have hsame : counted.1=UInt8.ofNat (joinRoles mgr data check).keys.length := by
    by_contra hignores
    rw [if_pos (bne_iff_ne.mpr hignores)] at h
    cases h
  rw [if_neg (by rw [bne_iff_ne]; exact not_not.mpr hsame)] at h
  have hroles : (CheckGroupRoles (joinRoles mgr data check) dungeon).1=true := by
    by_contra hwrong
    rw [Bool.eq_false_of_not_eq_true hwrong,if_pos (show (!false)=true from rfl)] at h
    cases h
  split_ifs at hcount with hfew
  · have hjoin := length_join_le mgr (entries data check) LfgRolesMap.empty
    rw [← joinRoles_eq,length_entries] at hjoin
    have hjoin : (joinRoles mgr data check).keys.length ≤ (players data check).length := by
      simpa [LfgRolesMap.empty] using hjoin
    have hlength : (joinRoles mgr data check).keys.length=(players data check).length := by
      have hnat := congrArg UInt8.toNat hsame
      rw [UInt8.toNat_ofNat',hcount.1] at hnat
      omega
    have happart : Apart mgr (players data check) := by
      have := @apart_of_length mgr (entries data check) LfgRolesMap.empty
        ⟨List.nodup_nil,fun _ hmem => absurd hmem List.not_mem_nil⟩ (by
          rw [← joinRoles_eq,hlength,length_entries]
          exact (Nat.zero_add _).symm)
      rw [fst_entries] at this
      exact this
    exact ⟨hfew.1,happart,hfew.2,(CheckGroupRoles_joinRoles happart
      (List.ne_nil_of_length_pos (by omega)) (by omega)).mp hroles⟩
  · rcases hcount with hover | hover
    · exact absurd hover hplaces
    · exact absurd (UInt8.lt_iff_toNat_lt.mpr (show (1 : UInt8).toNat < _ from hover)) hgroups

/-- One member is compatible if the dungeon has the places. -/
theorem judge_single {guid : Guid} (hwants : Wants mgr data dungeon [guid])
    (h : (players data [guid]).length ≤ dungeon.GetMaxGroupSize.toNat) :
    (judge mgr data [guid]).compatibility=complete mgr data dungeon [guid] := by
  obtain ⟨dungeonId,hselect⟩ := hwants.select (List.cons_ne_nil guid [])
  have hmembers := hwants.length_le
  rw [List.length_singleton] at hmembers
  have hcount := @countPlayers_eq mgr data [guid] _ hwants.counted 0 0
  have hone : [guid].countP mgr.IsLfgGroup ≤ 1 := List.countP_le_length
  rw [UInt8.toNat_zero,Nat.zero_add,Nat.zero_add,if_pos ⟨h,hone⟩] at hcount
  obtain ⟨hplayers,hgroups⟩ := hcount
  unfold judge
  dsimp only
  rw [hselect]
  dsimp only
  generalize countPlayers mgr data dungeon.GetMaxGroupSize.toNat [guid] 0 0=counted at hplayers hgroups ⊢
  have hnone : ¬1 < [guid].length := lt_irrefl 1
  rw [if_neg (by rw [List.length_singleton]; omega),
    if_neg (fun hmany => absurd (UInt8.lt_iff_toNat_lt.mp hmany) (not_lt.mpr hgroups)),
    if_neg (by omega),decide_eq_false hnone,Bool.false_and,Bool.false_and,
    if_neg Bool.false_ne_true,if_neg Bool.false_ne_true,hplayers]
  unfold complete
  split_ifs <;> rfl

theorem verdict_of_fits (hwants : Wants mgr data dungeon check) (hseveral : 1 < check.length)
    (h : Fits mgr data dungeon check) :
    verdict mgr data check=complete mgr data dungeon check := by
  induction check with
  | nil => exact absurd hseveral (by decide)
  | cons front rest ih =>
    have hchild : (if 1 < rest.length then verdict mgr data rest
        else LFG_COMPATIBLES_WITH_LESS_PLAYERS).incompatible=false := by
      split
      · rename_i hlong
        rw [ih (hwants.subset (List.subset_cons_self front rest)) hlong
          (h.sublist (List.sublist_cons_self front rest))]
        exact complete_compatible mgr data dungeon rest
      · rfl
    rw [verdict,if_neg (by rw [hchild]; exact Bool.false_ne_true)]
    exact judge_of_fits hwants hseveral h

theorem verdict_of_not_fits (hwants : Wants mgr data dungeon check) (hseveral : 1 < check.length)
    (h : ¬Fits mgr data dungeon check) : (verdict mgr data check).incompatible=true := by
  cases check with
  | nil => exact absurd hseveral (by decide)
  | cons front rest =>
    rw [verdict]
    generalize (if 1 < rest.length then verdict mgr data rest
      else LFG_COMPATIBLES_WITH_LESS_PLAYERS)=child
    split
    · rename_i hchild
      exact hchild
    · by_contra hcompatible
      exact h (fits_of_judge hwants hseveral (Bool.eq_false_of_not_eq_true hcompatible))

end

end Projectnelth.LfgModel
