import Mathlib
import Projectnelth.LfgRoles

/-!
# The search for dungeon finder groups

`CheckCompatibility` judges a list of queued players and groups, all of it but the first
one before; `FindNewGroups` extends a list by the members of the queue. The list of the
members still to be tried is shared by all levels of the recursion. The key of the cache, a
string of the guids in order, is the set of the guids. The leader and the answers of a
proposal, the best compatible lists and the waiting times are outside.
-/

namespace Projectnelth.LfgModel

open Role

inductive LfgCompatibility
  | LFG_COMPATIBILITY_PENDING
  | LFG_INCOMPATIBLES_WRONG_GROUP_SIZE
  | LFG_INCOMPATIBLES_TOO_MUCH_PLAYERS
  | LFG_INCOMPATIBLES_MULTIPLE_LFG_GROUPS
  | LFG_INCOMPATIBLES_HAS_IGNORES
  | LFG_INCOMPATIBLES_NO_ROLES
  | LFG_INCOMPATIBLES_NO_DUNGEONS
  | LFG_COMPATIBLES_WITH_LESS_PLAYERS
  | LFG_COMPATIBLES_BAD_STATES
  | LFG_COMPATIBLES_MATCH
  deriving DecidableEq

open LfgCompatibility

/-- The values under `LFG_COMPATIBLES_WITH_LESS_PLAYERS`: not compatible. -/
def LfgCompatibility.incompatible : LfgCompatibility → Bool
  | LFG_COMPATIBLES_WITH_LESS_PLAYERS => false
  | LFG_COMPATIBLES_BAD_STATES => false
  | LFG_COMPATIBLES_MATCH => false
  | _ => true

/-- A map without players. -/
def LfgRolesMap.empty : LfgRolesMap := ⟨[],List.Pairwise.nil,fun _ => 0⟩

/-- A new key in its place. -/
def insertKey (guid : Guid) : List Guid → List Guid
  | [] => [guid]
  | x::keys => if guid < x then guid::x::keys else if guid=x then x::keys else x::insertKey guid keys

theorem mem_of_mem_insertKey {guid key : Guid} {keys : List Guid}
    (h : key∈insertKey guid keys) : key=guid ∨ key∈keys := by
  induction keys with
  | nil => exact Or.inl (List.mem_singleton.mp h)
  | cons x keys ih =>
    unfold insertKey at h
    split at h
    · exact List.mem_cons.mp h
    split at h
    · exact Or.inr h
    · rcases List.mem_cons.mp h with rfl | h
      · exact Or.inr List.mem_cons_self
      · exact (ih h).imp_right (List.mem_cons_of_mem x)

/-- The keys stay in order. -/
theorem sorted_insertKey (guid : Guid) {keys : List Guid} (h : keys.Pairwise (·<·)) :
    (insertKey guid keys).Pairwise (·<·) := by
  induction keys with
  | nil => exact List.pairwise_singleton _ _
  | cons x keys ih =>
    obtain ⟨hx,hkeys⟩ := List.pairwise_cons.mp h
    unfold insertKey
    split
    · rename_i hlt
      refine List.pairwise_cons.mpr ⟨fun key hkey => ?_,h⟩
      rcases List.mem_cons.mp hkey with rfl | hkey
      · exact hlt
      · exact lt_trans hlt (hx key hkey)
    · split
      · exact h
      rename_i hle hne
      refine List.pairwise_cons.mpr ⟨fun key hkey => ?_,ih hkeys⟩
      rcases mem_of_mem_insertKey hkey with rfl | hkey
      · exact lt_of_le_of_ne (not_lt.mp hle) (Ne.symm hne)
      · exact hx key hkey

/-- `proposalRoles[guid] = mask`. -/
def LfgRolesMap.write (groles : LfgRolesMap) (guid : Guid) (mask : UInt8) : LfgRolesMap where
  keys := insertKey guid groles.keys
  sorted := sorted_insertKey guid groles.sorted
  roles := Function.update groles.roles guid mask

structure LfgQueueData where
  /-- `dungeons`, in order. -/
  dungeons : List ℕ
  roles : LfgRolesMap

instance : Inhabited LfgQueueData := ⟨⟨[],LfgRolesMap.empty⟩⟩

/-- What the queue reads of `LFGMgr`. -/
structure LFGMgr where
  GetLFGDungeon : ℕ → Option LFGDungeonData
  IsLfgGroup : Guid → Bool
  /-- Whether `FindPlayer` finds the player. -/
  FindPlayer : Guid → Bool
  /-- Whether the first player's social list has the second one as ignored. -/
  ignores : Guid → Guid → Bool
  /-- Whether `GetState` is `LFG_STATE_QUEUED`. -/
  queued : Guid → Bool
  /-- The place that `SelectRandomContainerElement` chooses. -/
  random : List ℕ → ℕ

def LFGMgr.HasIgnore (mgr : LFGMgr) (guid1 guid2 : Guid) : Bool :=
  mgr.FindPlayer guid1 && mgr.FindPlayer guid2 &&
    (mgr.ignores guid1 guid2 || mgr.ignores guid2 guid1)

theorem LFGMgr.HasIgnore_comm (mgr : LFGMgr) (guid1 guid2 : Guid) :
    mgr.HasIgnore guid1 guid2=mgr.HasIgnore guid2 guid1 := by
  unfold LFGMgr.HasIgnore
  rw [Bool.and_comm (mgr.FindPlayer guid1),Bool.or_comm]

def LFGMgr.AllQueued (mgr : LFGMgr) (check : List Guid) : Bool :=
  !check.isEmpty && check.all mgr.queued

structure LfgProposal where
  dungeonId : ℕ
  group : Option Guid
  queues : List Guid
  /-- The roles of `players`. -/
  players : LfgRolesMap

structure LFGQueue where
  QueueDataStore : Guid → Option LfgQueueData
  CompatibleMapStore : Finset Guid → Option LfgCompatibility
  newToQueueStore : List Guid
  currentQueueStore : List Guid
  /-- What was given to `AddProposal`. -/
  proposals : List LfgProposal

/-- The loop that chooses a dungeon which exists, with a fuel of the number of dungeons. -/
def selectDungeon (mgr : LFGMgr) : ℕ → List ℕ → Option (ℕ×LFGDungeonData)
  | 0,_ => none
  | fuel+1,dungeons =>
    match dungeons[mgr.random dungeons%dungeons.length]? with
    | none => none
    | some dungeonId =>
      match mgr.GetLFGDungeon dungeonId with
      | some dungeon => some (dungeonId,dungeon)
      | none => selectDungeon mgr fuel (dungeons.erase dungeonId)

/-- `proposalDungeons`. -/
def commonDungeons (data : Guid → LfgQueueData) : List Guid → List ℕ
  | [] => []
  | front::rest =>
    rest.foldl (fun common guid => common.filter fun id => id∈(data guid).dungeons)
      (data front).dungeons

/-- The loop that counts the players and the LFG groups; it stops at a second group
or above the size. -/
def countPlayers (mgr : LFGMgr) (data : Guid → LfgQueueData) (maxSize : ℕ) :
    List Guid → UInt8 → UInt8 → UInt8×UInt8
  | [],numPlayers,numLfgGroups => (numPlayers,numLfgGroups)
  | guid::rest,numPlayers,numLfgGroups =>
    if numLfgGroups ≤ 1 && numPlayers.toNat ≤ maxSize then
      countPlayers mgr data maxSize rest
        (numPlayers+UInt8.ofNat (data guid).roles.keys.length)
        (if mgr.IsLfgGroup guid then numLfgGroups+1 else numLfgGroups)
    else (numPlayers,numLfgGroups)

/-- The loop over the players of a member: one that ignores or is ignored is left out. -/
def joinPlayers (mgr : LFGMgr) (roles : LfgRolesMap) : List Guid → LfgRolesMap → LfgRolesMap
  | [],proposalRoles => proposalRoles
  | player::rest,proposalRoles =>
    if proposalRoles.keys.any fun other => player != other && mgr.HasIgnore player other then
      joinPlayers mgr roles rest proposalRoles
    else joinPlayers mgr roles rest (proposalRoles.write player (roles.roles player))

/-- `proposalRoles` of several members. -/
def joinRoles (mgr : LFGMgr) (data : Guid → LfgQueueData) (check : List Guid) : LfgRolesMap :=
  check.foldl
    (fun proposalRoles guid =>
      joinPlayers mgr (data guid).roles (data guid).roles.keys proposalRoles)
    LfgRolesMap.empty

/-- What `CheckCompatibility` makes of a list behind the check of its tail. -/
structure Judgement where
  compatibility : LfgCompatibility
  /-- Whether it is stored in the cache. -/
  stored : Bool
  proposal : Option LfgProposal

/-- `CheckCompatibility` behind the check of all but the first member. -/
def judge (mgr : LFGMgr) (data : Guid → LfgQueueData) (check : List Guid) : Judgement :=
  let proposalDungeons := commonDungeons data check
  match selectDungeon mgr proposalDungeons.length proposalDungeons with
  | none => ⟨LFG_INCOMPATIBLES_NO_DUNGEONS,true,none⟩
  | some (dungeonId,dungeon) =>
    let maxSize := dungeon.GetMaxGroupSize.toNat
    let counted := countPlayers mgr data maxSize check 0 0
    let several := decide (1 < check.length)
    let proposalRoles :=
      if several then joinRoles mgr data check
      else ((check.head?.map data).getD default).roles
    let checked := CheckGroupRoles proposalRoles dungeon
    if maxSize < check.length then ⟨LFG_INCOMPATIBLES_WRONG_GROUP_SIZE,false,none⟩
    else if 1 < counted.2 then ⟨LFG_INCOMPATIBLES_MULTIPLE_LFG_GROUPS,true,none⟩
    else if maxSize < counted.1.toNat then ⟨LFG_INCOMPATIBLES_TOO_MUCH_PLAYERS,true,none⟩
    else if several && counted.1 != UInt8.ofNat proposalRoles.keys.length then
      ⟨LFG_INCOMPATIBLES_HAS_IGNORES,true,none⟩
    else if several && !checked.1 then ⟨LFG_INCOMPATIBLES_NO_ROLES,true,none⟩
    else if counted.1.toNat≠maxSize then ⟨LFG_COMPATIBLES_WITH_LESS_PLAYERS,true,none⟩
    else if !mgr.AllQueued check then ⟨LFG_COMPATIBLES_BAD_STATES,true,none⟩
    else
      ⟨LFG_COMPATIBLES_MATCH,true,
        some ⟨dungeonId,check.find? mgr.IsLfgGroup,check,checked.2⟩⟩

namespace LFGQueue

/-- The data of a member, made where there is none. -/
def data (q : LFGQueue) (guid : Guid) : LfgQueueData := (q.QueueDataStore guid).getD default

/-- `QueueDataStore[guid]` for each of the members. -/
def index (q : LFGQueue) (check : List Guid) : LFGQueue :=
  { q with
    QueueDataStore := fun guid =>
      if guid∈check then some (q.data guid) else q.QueueDataStore guid }

def SetCompatibles (q : LFGQueue) (check : List Guid) (compatibles : LfgCompatibility) :
    LFGQueue :=
  { q with
    CompatibleMapStore :=
      Function.update q.CompatibleMapStore check.toFinset (some compatibles) }

def GetCompatibles (q : LFGQueue) (check : List Guid) : LfgCompatibility :=
  (q.CompatibleMapStore check.toFinset).getD LFG_COMPATIBILITY_PENDING

/-- What a judgement leaves behind: an entry in the cache, and with a proposal its
members leave the queues. -/
def carryOut (q : LFGQueue) (check : List Guid) (judgement : Judgement) : LFGQueue :=
  let proposed :=
    match judgement.proposal with
    | none => q
    | some proposal =>
      { q with
        newToQueueStore := q.newToQueueStore.filter fun guid => guid∉check
        currentQueueStore := q.currentQueueStore.filter fun guid => guid∉check
        proposals := q.proposals++[proposal] }
  if judgement.stored then proposed.SetCompatibles check judgement.compatibility else proposed

end LFGQueue

/-- `CheckCompatibility`. A member without data has none of the dungeons, since `operator[]` has
made its data before it is looked for. -/
def CheckCompatibility (mgr : LFGMgr) : List Guid → LFGQueue → LfgCompatibility×LFGQueue
  | [],q => (LFG_INCOMPATIBLES_WRONG_GROUP_SIZE,q)
  | front::rest,q =>
    let child :=
      if 1 < rest.length then CheckCompatibility mgr rest q
      else (LFG_COMPATIBLES_WITH_LESS_PLAYERS,q)
    if child.1.incompatible then (child.1,child.2.SetCompatibles (front::rest) child.1)
    else
      let indexed := child.2.index (front::rest)
      let judgement := judge mgr indexed.data (front::rest)
      (judgement.compatibility,indexed.carryOut (front::rest) judgement)

/-- `FindNewGroups` up to its loop. -/
def checkCached (mgr : LFGMgr) (check : List Guid) (q : LFGQueue) : LfgCompatibility×LFGQueue :=
  let compatibles :=
    if q.GetCompatibles check=LFG_COMPATIBILITY_PENDING then CheckCompatibility mgr check q
    else (q.GetCompatibles check,q)
  if compatibles.1=LFG_COMPATIBLES_BAD_STATES && mgr.AllQueued check then
    (LFG_COMPATIBLES_MATCH,compatibles.2.SetCompatibles check LFG_COMPATIBLES_MATCH)
  else compatibles

/-- The loop of `FindNewGroups`, with the recursive call written out: the call takes its
members from the same list, and the loop goes on with what the call has left of it. Every round
takes a member, so the length of the list is enough fuel. -/
def tryQueued (mgr : LFGMgr) : ℕ → LfgCompatibility → List Guid → List Guid → LFGQueue →
    LfgCompatibility×List Guid×LFGQueue
  | _,compatibles,_,[],q => (compatibles,[],q)
  | 0,compatibles,_,all,q => (compatibles,all,q)
  | fuel+1,compatibles,check,front::all,q =>
    let longer := check++[front]
    let checked := checkCached mgr longer q
    let sub :=
      if checked.1=LFG_COMPATIBLES_WITH_LESS_PLAYERS then
        tryQueued mgr fuel checked.1 longer all checked.2
      else (checked.1,all,checked.2)
    if sub.1=LFG_COMPATIBLES_MATCH then (LFG_COMPATIBLES_MATCH,sub.2)
    else tryQueued mgr fuel compatibles check sub.2.1 sub.2.2

/-- `FindNewGroups`: the compatibility, what is left of `all`, and the queue. -/
def FindNewGroups (mgr : LFGMgr) (check all : List Guid) (q : LFGQueue) :
    LfgCompatibility×List Guid×LFGQueue :=
  let checked := checkCached mgr check q
  if checked.1=LFG_COMPATIBLES_WITH_LESS_PLAYERS then
    tryQueued mgr all.length checked.1 check all checked.2
  else (checked.1,all,checked.2)

end Projectnelth.LfgModel
