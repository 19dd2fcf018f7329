import Mathlib
import Projectnelth.OrderedMap

/-!
# Chat channels

A channel keeps the record of each member in a map, where `operator[]` makes a record that is
not there, and names its owner by the guid and by a flag of the record. What is written to the
players that come and go is kept beside the channel.
-/

namespace Projectnelth.ChannelModel

open OrderedMap

/-- `PlayerInfo`. The flags are those that are used. -/
structure PlayerInfo where
  player : ℕ
  /-- `MEMBER_FLAG_OWNER`. -/
  owner : Bool
  /-- `MEMBER_FLAG_MODERATOR`. -/
  moderator : Bool
  /-- `MEMBER_FLAG_MUTED`. -/
  muted : Bool
  deriving DecidableEq

/-- The record that `operator[]` makes. -/
instance : Inhabited PlayerInfo := ⟨⟨0,false,false,false⟩⟩

structure Player where
  /-- `GetGUID`. -/
  guid : ℕ
  guid_ne_zero : guid≠0
  /-- `GetName`. -/
  name : String
  /-- `GetOTeam`. -/
  team : ℕ
  /-- `IsGMAccount`. -/
  gm : Bool
  /-- `IsPlayerAccount`. -/
  playerAccount : Bool
  /-- `GetGroup`. -/
  group : Bool
  deriving DecidableEq

/-- What the world answers during a call. -/
structure Env where
  findPlayerByName : String → Option Player
  /-- `CONFIG_RESTRICTED_LFG_CHANNEL`. -/
  restrictedLfg : Bool
  /-- `CONFIG_ALLOW_TWO_SIDE_INTERACTION_CHANNEL`. -/
  twoSide : Bool

/-- A player came or went. -/
inductive Note where
  /-- The player joined. -/
  | joined (guid : ℕ)
  /-- The player left, or was kicked or banned. -/
  | left (guid : ℕ)
  deriving DecidableEq

structure Channel where
  /-- The name is that of the feed of the game masters. -/
  gmfeed : Bool
  /-- `IsConstant`. -/
  constant : Bool
  /-- `CHANNEL_FLAG_LFG`. -/
  lfg : Bool
  announce : Bool
  ownership : Bool
  ownerGUID : ℕ
  password : String
  playersStore : List (ℕ×PlayerInfo)
  bannedStore : List ℕ
  /-- The players that came and went, the last first. -/
  notes : List Note
  deriving DecidableEq

namespace Channel

def isOn (c : Channel) (who : ℕ) : Bool := (find who c.playersStore).isSome

def isBanned (c : Channel) (guid : ℕ) : Bool := guid∈c.bannedStore

/-- `playersStore[guid]`. -/
def info (c : Channel) (guid : ℕ) : PlayerInfo := index guid c.playersStore

/-- A member of `playersStore[guid]` is written. -/
def modify (c : Channel) (guid : ℕ) (f : PlayerInfo → PlayerInfo) : Channel :=
  { c with playersStore := write guid (f (c.info guid)) c.playersStore }

/-- `PlayerInfo::SetModerator`. -/
def setModerator (state : Bool) (pinfo : PlayerInfo) : PlayerInfo :=
  { pinfo with moderator := state }

/-- `PlayerInfo::SetOwner`. -/
def setOwnerFlag (state : Bool) (pinfo : PlayerInfo) : PlayerInfo := { pinfo with owner := state }

/-- `PlayerInfo::SetMuted`. -/
def setMuted (state : Bool) (pinfo : PlayerInfo) : PlayerInfo := { pinfo with muted := state }

/-- The old owner loses the flag, where he is still there. -/
def dropOwner (c : Channel) : Channel :=
  if c.ownerGUID≠0 && c.isOn c.ownerGUID then c.modify c.ownerGUID (setOwnerFlag false) else c

/-- `SetOwner`, for a guid. -/
def setOwner (c : Channel) (guid : ℕ) : Channel :=
  let c := { c.dropOwner with ownerGUID := guid }
  if guid≠0 then (c.modify guid (setModerator true)).modify guid (setOwnerFlag true) else c

/-- The entry of a player is taken away. -/
def erase (c : Channel) (guid : ℕ) : Channel :=
  { c with
    playersStore := KeyedList.remove Prod.fst guid c.playersStore
    notes := .left guid::c.notes }

def leaveChannel (c : Channel) (player : Player) : Channel :=
  let guid := player.guid
  if !c.isOn guid then c
  else
    let changeowner := (c.info guid).owner
    let c := c.erase guid
    if !c.constant && changeowner && c.ownership then
      match c.playersStore.head? with
      | none => c
      | some x =>
        let newowner := x.2.player
        (c.modify newowner (setModerator true)).setOwner newowner
    else c

def joinChannel (c : Channel) (e : Env) (player : Player) (pass : String) : Channel :=
  if c.gmfeed && player.playerAccount then c.leaveChannel player
  else
    let guid := player.guid
    if c.isOn guid then c
    else if c.isBanned guid then c
    else if c.password≠"" ∧ pass≠c.password then c
    else if c.lfg && e.restrictedLfg && player.playerAccount && player.group then c
    else
      let pinfo : PlayerInfo := ⟨guid,false,false,false⟩
      let c := { c with
        playersStore := write guid pinfo c.playersStore
        notes := .joined guid::c.notes }
      if !c.constant && c.ownerGUID=0 && c.ownership then
        (c.setOwner guid).modify guid (setModerator true)
      else c

/-- The player may use what moderators use. -/
def mayModerate (c : Channel) (player : Player) : Bool :=
  c.isOn player.guid && ((c.info player.guid).moderator || player.gm)

/-- The player that `KickOrBan` takes out, where it does. -/
def kicked (c : Channel) (e : Env) (player : Player) (badname : String) : Option Player :=
  if !c.mayModerate player then none
  else
    match e.findPlayerByName badname with
    | none => none
    | some bad =>
      if !c.isOn bad.guid then none
      else if !player.gm && c.ownerGUID=bad.guid && player.guid≠c.ownerGUID then none
      else some bad

def kickOrBan (c : Channel) (e : Env) (player : Player) (badname : String) (ban : Bool) :
    Channel :=
  match c.kicked e player badname with
  | none => c
  | some bad =>
    let changeowner : Bool := c.ownerGUID=bad.guid
    let c :=
      if ban && !c.isBanned bad.guid then { c with bannedStore := bad.guid::c.bannedStore } else c
    let c := c.erase bad.guid
    if changeowner && c.ownership && !c.playersStore.isEmpty then
      (c.modify player.guid (setModerator true)).setOwner player.guid
    else c

def unBan (c : Channel) (e : Env) (player : Player) (badname : String) : Channel :=
  if !c.mayModerate player then c
  else
    match e.findPlayerByName badname with
    | none => c
    | some bad =>
      if !c.isBanned bad.guid then c
      else { c with bannedStore := c.bannedStore.filter fun guid => guid≠bad.guid }

/-- `Password`. -/
def setPassword (c : Channel) (player : Player) (pass : String) : Channel :=
  if !c.mayModerate player then c else { c with password := pass }

/-- The player that `SetMode` is about, where it is not refused. -/
def moded (c : Channel) (e : Env) (player : Player) (p2n : String) (mod : Bool) :
    Option Player :=
  if !c.mayModerate player then none
  else if player.guid=c.ownerGUID ∧ p2n=player.name ∧ mod then none
  else
    match e.findPlayerByName p2n with
    | none => none
    | some newp =>
      if !c.isOn newp.guid ||
          ((!player.gm || !newp.gm) && player.team≠newp.team && !e.twoSide) then none
      else if c.ownerGUID=newp.guid ∧ c.ownerGUID≠player.guid then none
      else some newp

def setMode (c : Channel) (e : Env) (player : Player) (p2n : String) (mod set : Bool) :
    Channel :=
  match c.moded e player p2n mod with
  | none => c
  | some newp => c.modify newp.guid (if mod then setModerator set else setMuted set)

/-- `SetOwner`, for a player and a name. -/
def setOwnerByName (c : Channel) (e : Env) (player : Player) (newname : String) : Channel :=
  if !c.isOn player.guid then c
  else if !player.gm && player.guid≠c.ownerGUID then c
  else
    match e.findPlayerByName newname with
    | none => c
    | some newp =>
      if !c.isOn newp.guid || (newp.team≠player.team && !e.twoSide) then c
      else (c.modify newp.guid (setModerator true)).setOwner newp.guid

/-- `Announce`. -/
def toggleAnnounce (c : Channel) (player : Player) : Channel :=
  if !c.mayModerate player then c else { c with announce := !c.announce }

/-- `CarbonCopy`. It asks `playersStore[guid]` whether the player is a moderator. -/
def carbonCopy (c : Channel) (guid : ℕ) (what : String) : Channel :=
  if what="" then c
  else if !c.gmfeed then c
  else c.modify guid id

end Channel

/-- The calls. `Say` asks and sends only. -/
inductive Call where
  | joinChannel (player : Player) (pass : String)
  | leaveChannel (player : Player)
  | kickOrBan (player : Player) (badname : String) (ban : Bool)
  | unBan (player : Player) (badname : String)
  | password (player : Player) (pass : String)
  | setMode (player : Player) (p2n : String) (mod set : Bool)
  | setOwner (player : Player) (newname : String)
  | announce (player : Player)
  | say (player : Player) (what : String)
  | carbonCopy (player : Player) (what : String)
  deriving DecidableEq

/-- The player who calls. -/
def Call.player : Call → Player
  | .joinChannel player _ => player
  | .leaveChannel player => player
  | .kickOrBan player _ _ => player
  | .unBan player _ => player
  | .password player _ => player
  | .setMode player _ _ _ => player
  | .setOwner player _ => player
  | .announce player => player
  | .say player _ => player
  | .carbonCopy player _ => player

/-- What comes of a call. -/
def Channel.step (c : Channel) (a : Env×Call) : Channel :=
  match a.2 with
  | .joinChannel player pass => c.joinChannel a.1 player pass
  | .leaveChannel player => c.leaveChannel player
  | .kickOrBan player badname ban => c.kickOrBan a.1 player badname ban
  | .unBan player badname => c.unBan a.1 player badname
  | .password player pass => c.setPassword player pass
  | .setMode player p2n mod set => c.setMode a.1 player p2n mod set
  | .setOwner player newname => c.setOwnerByName a.1 player newname
  | .announce player => c.toggleAnnounce player
  | .say _ _ => c
  | .carbonCopy player what => c.carbonCopy player.guid what

end Projectnelth.ChannelModel
