import Mathlib
import Projectnelth.ArraySizes
import Projectnelth.TwoSided

/-!
# Arena teams

A team lists its members, the character infos and the fields of an online player name his team
for each slot. The fields are stored behind a table that keeps the teams in front of the empty
places; it and the infos have three slots, though there are four types of teams. A packet that
reads or writes behind them gives `none`. Names are lists of characters. The database, the
ratings and the packets that are sent are left out.
-/

namespace Projectnelth.ArenaTeamModel

open KeyedList

/-- What stands in one place of the arena team info of a player. -/
structure Info where
  ARENA_TEAM_ID : ℕ
  ARENA_TEAM_TYPE : ℕ
  /-- `ARENA_TEAM_MEMBER`: 0 for the captain, 1 for a member. -/
  ARENA_TEAM_MEMBER : ℕ
  deriving DecidableEq

/-- A place that was cleared. -/
def Info.zero : Info := ⟨0,0,0⟩

structure Player where
  arenaTeamInfoSlot : Fin 3 → Fin 3
  /-- The values from `PLAYER_FIELD_ARENA_TEAM_INFO_1_1` on. -/
  info : Fin 3 → Info
  /-- `m_ArenaTeamIdInvited`. -/
  arenaTeamIdInvited : ℕ

namespace Player

def GetArenaTeamId (p : Player) (slot : Fin 3) : ℕ :=
  (p.info (p.arenaTeamInfoSlot slot)).ARENA_TEAM_ID

def SetArenaTeamIdInvited (p : Player) (arenaTeamId : ℕ) : Player :=
  { p with arenaTeamIdInvited := arenaTeamId }

/-- The first place with no type. -/
def freePlace (p : Player) : Option (Fin 3) :=
  [0,1,2].find? fun c => (p.info c).ARENA_TEAM_TYPE=0

def SetInArenaTeam (p : Player) (arenaTeamId : ℕ) (slot : Fin 3) (type : ℕ) : Player :=
  match p.freePlace with
  | none => p
  | some c =>
    { p with
      arenaTeamInfoSlot := fun r =>
        if r=slot then c
        else if p.arenaTeamInfoSlot r=c then p.arenaTeamInfoSlot slot
        else p.arenaTeamInfoSlot r
      info := Function.update p.info c
        { p.info c with ARENA_TEAM_ID := arenaTeamId,ARENA_TEAM_TYPE := type } }

/-- `SetArenaTeamInfoField`, for `ARENA_TEAM_MEMBER`. -/
def SetMember (p : Player) (slot : Fin 3) (value : ℕ) : Player :=
  { p with
    info := Function.update p.info (p.arenaTeamInfoSlot slot)
      { p.info (p.arenaTeamInfoSlot slot) with ARENA_TEAM_MEMBER := value } }

/-- The places from one on move up by one. -/
def moveUp (info : Fin 3 → Info) (first : Fin 3) : Fin 3 → Info :=
  ([0,1].filter fun c => first ≤ c).foldl (fun info c => Function.update info c (info (c+1))) info

def DeleteArenaTeam (p : Player) (slot : Fin 3) : Player :=
  if p.arenaTeamInfoSlot slot=2 then { p with info := Function.update p.info 2 Info.zero }
  else
    { p with
      arenaTeamInfoSlot := fun r =>
        if r=slot then 2
        else if p.arenaTeamInfoSlot slot < p.arenaTeamInfoSlot r then p.arenaTeamInfoSlot r-1
        else p.arenaTeamInfoSlot r
      info := Function.update (moveUp p.info (p.arenaTeamInfoSlot slot)) 2 Info.zero }

end Player

structure ArenaTeamMember where
  Guid : ℕ
  Name : List Char
  deriving DecidableEq

structure ArenaTeam where
  TeamId : ℕ
  /-- `Type`. -/
  teamType : ℕ
  TeamName : List Char
  CaptainGuid : ℕ
  isSoloQueueTeam : Bool
  Members : List ArenaTeamMember
  deriving DecidableEq

def GetSlotByType : ℕ → ℕ
  | 2 => 0
  | 3 => 1
  | 5 => 2
  | 10 => 3
  | _ => 0xFF

def GetTypeBySlot : ℕ → ℕ
  | 0 => 2
  | 1 => 3
  | 2 => 5
  | 3 => 10
  | _ => 0xFF

/-- A slot as an index of the arrays, where it is none behind them. -/
def index (slot : ℕ) : Option (Fin 3) := if h : slot < 3 then some ⟨slot,h⟩ else none

def ArenaTeam.GetSlot (team : ArenaTeam) : ℕ := GetSlotByType team.teamType

/-- `GetMember`, by the name. -/
def ArenaTeam.GetMember (team : ArenaTeam) (name : List Char) : Option ArenaTeamMember :=
  team.Members.find? fun member => member.Name=name

/-- The first entry of a player is taken out. -/
def eraseMember (guid : ℕ) : List ArenaTeamMember → List ArenaTeamMember
  | [] => []
  | member::members =>
    if member.Guid=guid then members else member::eraseMember guid members

/-- Who is there during a run. -/
structure Realm where
  /-- `FindPlayer`. -/
  online : ℕ → Bool
  nameOf : ℕ → List Char

/-- A player that is online. -/
def Realm.Online (r : Realm) : Type := { guid : ℕ // r.online guid=true }

/-- What the server answers while a packet is handled. -/
structure Answers (r : Realm) where
  /-- `IsReservedName` or not `IsValidCharterName`. -/
  badName : List Char → Bool
  normalizePlayerName : List Char → Option (List Char)
  findPlayerByName : List Char → Option r.Online
  /-- The player is of the highest level. -/
  grown : ℕ → Bool
  /-- `HasIgnore`: the one has the other on his list. -/
  ignores : ℕ → ℕ → Bool
  /-- Two sides may interact, or both are of one. -/
  allied : ℕ → ℕ → Bool
  inArena : ℕ → Bool
  /-- The map of the player `IsBattleArena`. -/
  onBattleArena : ℕ → Bool
  /-- The player waits for an arena or in the solo queue. -/
  queued : ℕ → Bool

/-- The teams, the players and the character infos. -/
structure World where
  ArenaTeamStore : List ArenaTeam
  NextArenaTeamId : ℕ
  /-- The players, as far as they are online. -/
  players : ℕ → Player
  /-- `InfoCharEntry::ArenaTeam`. -/
  charInfos : ℕ → Fin 3 → ℕ

namespace World

def GetArenaTeamById (w : World) (arenaTeamId : ℕ) : Option ArenaTeam :=
  lookup ArenaTeam.TeamId arenaTeamId w.ArenaTeamStore

/-- `GetArenaTeamByName` finds a team. -/
def nameTaken (w : World) (name : List Char) : Bool :=
  w.ArenaTeamStore.any fun team => team.TeamName.map Char.toUpper=name.map Char.toUpper

/-- A player is changed. -/
def setPlayer (w : World) (guid : ℕ) (f : Player → Player) : World :=
  { w with players := Function.update w.players guid (f (w.players guid)) }

def UpdateCharArenaTeam (w : World) (guid team : ℕ) (slot : Fin 3) : World :=
  { w with
    charInfos := fun guid' slot' =>
      if guid'=guid ∧ slot'=slot then team else w.charInfos guid' slot' }

/-- What stands in the store for a team is written. -/
def setTeam (w : World) (team : ArenaTeam) : World :=
  { w with ArenaTeamStore := replace ArenaTeam.TeamId team w.ArenaTeamStore }

/-- What `AddMember` does to a player that is online. -/
def inform (team : ArenaTeam) (slot : Fin 3) (guid : ℕ) (player : Player) : Player :=
  let player := (player.SetInArenaTeam team.TeamId slot team.teamType).SetArenaTeamIdInvited 0
  if team.CaptainGuid≠guid then player.SetMember slot 1 else player

/-- `AddMember`, with the slot of the team. Gives the world and the team, where the player was
added. -/
def AddMember (r : Realm) (w : World) (slot : Fin 3) (team : ArenaTeam) (guid : ℕ) :
    Option (World×ArenaTeam) :=
  if team.Members.length ≥ team.teamType*2 then none
  else if (r.online guid && (w.players guid).GetArenaTeamId slot≠0) ||
      w.charInfos guid slot≠0 then none
  else
    let team := { team with Members := team.Members++[⟨guid,r.nameOf guid⟩] }
    let w := w.UpdateCharArenaTeam guid team.TeamId slot
    let w := if r.online guid then w.setPlayer guid (inform team slot guid) else w
    some (w,team)

/-- `DelMember`, of a team of the store, with the slot of the team. -/
def DelMember (r : Realm) (w : World) (slot : Fin 3) (team : ArenaTeam) (guid : ℕ) :
    World×ArenaTeam :=
  let team := { team with Members := eraseMember guid team.Members }
  let w := w.setTeam team
  let w := if r.online guid then
      w.setPlayer guid fun player => player.DeleteArenaTeam slot
    else w
  (w.UpdateCharArenaTeam guid 0 slot,team)

/-- The loop of `Disband`, with as many rounds left as there are members. -/
def disbandLoop (r : Realm) (slot : Fin 3) : ℕ → World×ArenaTeam → World×ArenaTeam
  | 0,s => s
  | n+1,s =>
    match s.2.Members with
    | [] => s
    | member::_ => disbandLoop r slot n (s.1.DelMember r slot s.2 member.Guid)

def Disband (r : Realm) (w : World) (slot : Fin 3) (team : ArenaTeam) : World :=
  let w := (disbandLoop r slot team.Members.length (w,team)).1
  { w with ArenaTeamStore := remove ArenaTeam.TeamId team.TeamId w.ArenaTeamStore }

end World

/-- The packets. -/
inductive Packet where
  /-- `CMSG_ARENA_TEAM_CREATE`. -/
  | create (slot : ℕ) (name : List Char)
  /-- `CMSG_ARENA_TEAM_INVITE`. -/
  | invite (arenaTeamId : ℕ) (invitedName : List Char)
  /-- `CMSG_ARENA_TEAM_ACCEPT`. -/
  | accept
  /-- `CMSG_ARENA_TEAM_DECLINE`. -/
  | decline
  /-- `CMSG_ARENA_TEAM_LEAVE`. -/
  | leave (arenaTeamId : ℕ)
  /-- `CMSG_ARENA_TEAM_DISBAND`. -/
  | disband (arenaTeamId : ℕ)
  /-- `CMSG_ARENA_TEAM_REMOVE`. -/
  | remove (arenaTeamId : ℕ) (name : List Char)

namespace World

variable {r : Realm}

/-- `HandleArenaTeamCreateOpcode`. The slot is read as 32 bits and used as 8. -/
def HandleArenaTeamCreateOpcode (w : World) (e : Answers r) (sender : r.Online) (slot : ℕ)
    (name : List Char) : Option World :=
  let type := GetTypeBySlot (slot%256)
  match index (slot%256) with
  | none => none
  | some i =>
    if (w.players sender.1).GetArenaTeamId i≠0 then some w
    else if e.badName name then some w
    else if w.nameTaken name then some w
    else
      let team : ArenaTeam := ⟨w.NextArenaTeamId,type,name,sender.1,false,[]⟩
      let w := { w with NextArenaTeamId := w.NextArenaTeamId+1 }
      -- `Create` does not ask whether the captain was added
      let added := (w.AddMember r i team sender.1).getD (w,team)
      some { added.1 with ArenaTeamStore := added.1.ArenaTeamStore++[added.2] }

def HandleArenaTeamInviteOpcode (w : World) (e : Answers r) (sender : r.Online)
    (arenaTeamId : ℕ) (invitedName : List Char) : Option World :=
  match (e.normalizePlayerName invitedName).bind e.findPlayerByName with
  | none => some w
  | some player =>
    if !e.grown player.1 then some w
    else
      match w.GetArenaTeamById arenaTeamId with
      | none => some w
      | some team =>
        if team.CaptainGuid≠sender.1 then some w
        else
          match index team.GetSlot with
          | none => none
          | some i =>
            if (w.players sender.1).GetArenaTeamId i≠arenaTeamId then some w
            else if e.ignores player.1 sender.1 then some w
            else if !e.allied player.1 sender.1 then some w
            else if (w.players player.1).GetArenaTeamId i≠0 then some w
            else if (w.players player.1).arenaTeamIdInvited≠0 then some w
            else if team.Members.length ≥ team.teamType*2 || team.isSoloQueueTeam then some w
            else some (w.setPlayer player.1 fun p => p.SetArenaTeamIdInvited team.TeamId)

def HandleArenaTeamAcceptOpcode (w : World) (e : Answers r) (sender : r.Online) :
    Option World :=
  match w.GetArenaTeamById (w.players sender.1).arenaTeamIdInvited with
  | none => some w
  | some team =>
    match index team.GetSlot with
    | none => none
    | some i =>
      if (w.players sender.1).GetArenaTeamId i≠0 then some w
      else if !e.allied sender.1 team.CaptainGuid then some w
      else
        match w.AddMember r i team sender.1 with
        | none => some w
        | some added => some (added.1.setTeam added.2)

def HandleArenaTeamDeclineOpcode (w : World) (sender : r.Online) : World :=
  w.setPlayer sender.1 fun p => p.SetArenaTeamIdInvited 0

def HandleArenaTeamLeaveOpcode (w : World) (e : Answers r) (sender : r.Online)
    (arenaTeamId : ℕ) : Option World :=
  match w.GetArenaTeamById arenaTeamId with
  | none => some w
  | some team =>
    if e.inArena sender.1 then some w
    else if e.queued sender.1 then some w
    else if sender.1=team.CaptainGuid ∧ 1 < team.Members.length then some w
    else
      match index team.GetSlot with
      | none => none
      | some i =>
        if sender.1=team.CaptainGuid then some (w.Disband r i team)
        else some (w.DelMember r i team sender.1).1

def IsFighting (e : Answers r) (team : ArenaTeam) : Bool :=
  team.Members.any fun member => r.online member.Guid && e.onBattleArena member.Guid

def HandleArenaTeamDisbandOpcode (w : World) (e : Answers r) (sender : r.Online)
    (arenaTeamId : ℕ) : Option World :=
  match w.GetArenaTeamById arenaTeamId with
  | none => some w
  | some team =>
    if team.CaptainGuid≠sender.1 then some w
    else if IsFighting e team then some w
    else if e.queued sender.1 then some w
    else
      match index team.GetSlot with
      | none => none
      | some i => some (w.Disband r i team)

def HandleArenaTeamRemoveOpcode (w : World) (e : Answers r) (sender : r.Online)
    (arenaTeamId : ℕ) (name : List Char) : Option World :=
  match w.GetArenaTeamById arenaTeamId with
  | none => some w
  | some team =>
    if team.CaptainGuid≠sender.1 || team.isSoloQueueTeam then some w
    else
      match (e.normalizePlayerName name).bind team.GetMember with
      | none => some w
      | some member =>
        if team.CaptainGuid=member.Guid then some w
        else if IsFighting e team then some w
        else
          match index team.GetSlot with
          | none => none
          | some i => some (w.DelMember r i team member.Guid).1

/-- What comes of a packet of an online player. -/
def handle (w : World) (a : r.Online×Packet×Answers r) : Option World :=
  match a.2.1 with
  | .create slot name => w.HandleArenaTeamCreateOpcode a.2.2 a.1 slot name
  | .invite arenaTeamId invitedName =>
    w.HandleArenaTeamInviteOpcode a.2.2 a.1 arenaTeamId invitedName
  | .accept => w.HandleArenaTeamAcceptOpcode a.2.2 a.1
  | .decline => some (w.HandleArenaTeamDeclineOpcode a.1)
  | .leave arenaTeamId => w.HandleArenaTeamLeaveOpcode a.2.2 a.1 arenaTeamId
  | .disband arenaTeamId => w.HandleArenaTeamDisbandOpcode a.2.2 a.1 arenaTeamId
  | .remove arenaTeamId name => w.HandleArenaTeamRemoveOpcode a.2.2 a.1 arenaTeamId name

end World

end Projectnelth.ArenaTeamModel
