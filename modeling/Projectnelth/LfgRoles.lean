import Mathlib

/-!
# The role check of the dungeon finder

`CheckGroupRoles` takes a role away from a player with several, checks the whole map
again and gives the role back if that failed. The map is shared by all levels of the
recursion, so a level hands it on with its result.
-/

namespace Projectnelth.LfgModel

/-- A guid of a player or a group. -/
abbrev Guid := ℕ

/-- The roles in a mask, apart from the leader. -/
inductive Role
  | TANK
  | HEALER
  | DAMAGE
  deriving DecidableEq

def PLAYER_ROLE_LEADER : UInt8 := 0x01

/-- `PLAYER_ROLE_TANK`, `PLAYER_ROLE_HEALER` and `PLAYER_ROLE_DAMAGE`. -/
def Role.bit : Role → UInt8
  | TANK => 0x02
  | HEALER => 0x04
  | DAMAGE => 0x08

open Role

/-- `LfgRolesMap`: the players in the order of the map, and the mask of each. -/
structure LfgRolesMap where
  keys : List Guid
  sorted : keys.Pairwise (·<·)
  roles : Guid → UInt8

/-- An assignment to `it->second`. -/
def LfgRolesMap.set (groles : LfgRolesMap) (guid : Guid) (mask : UInt8) : LfgRolesMap :=
  { groles with roles := Function.update groles.roles guid mask }

/-- `LFGDungeonData`, the numbers of a group. -/
structure LFGDungeonData where
  requiredTanks : UInt32
  requiredHeals : UInt32
  requiredDamagedealers : UInt32
  deriving DecidableEq

/-- The limit of a role. -/
def LFGDungeonData.required (dungeon : LFGDungeonData) : Role → UInt32
  | TANK => dungeon.requiredTanks
  | HEALER => dungeon.requiredHeals
  | DAMAGE => dungeon.requiredDamagedealers

def LFGDungeonData.GetMaxGroupSize (dungeon : LFGDungeonData) : UInt32 :=
  dungeon.requiredTanks+dungeon.requiredHeals+dungeon.requiredDamagedealers

/-- `tank`, `healer` and `damage`. -/
abbrev Counters := Role → UInt8

/-- How a part of the check ends. -/
inductive Flow
  /-- The recursion is out of fuel. -/
  | exhausted
  /-- A `return`. -/
  | done (result : Bool) (groles : LfgRolesMap)
  /-- It goes on. -/
  | go (counters : Counters) (groles : LfgRolesMap)

/-- The block of one role for the player `it`; `role` is the mask from before the blocks. -/
def checkRole (check : LfgRolesMap → Option (Bool×LfgRolesMap)) (dungeon : LFGDungeonData)
    (it : Guid) (role : UInt8) (r : Role) (counters : Counters) (groles : LfgRolesMap) : Flow :=
  if role&&&r.bit=0 then Flow.go counters groles
  else if role≠r.bit then
    match check (groles.set it (groles.roles it-r.bit)) with
    | none => Flow.exhausted
    | some (true,groles) => Flow.done true groles
    | some (false,groles) => Flow.go counters (groles.set it (groles.roles it+r.bit))
  else if (counters r).toUInt32=dungeon.required r then Flow.done false groles
  else Flow.go (Function.update counters r (counters r+1)) groles

theorem checkRole_several {check : LfgRolesMap → Option (Bool×LfgRolesMap)}
    {dungeon : LFGDungeonData} {it : Guid} {role : UInt8} {r : Role} {counters : Counters}
    {groles : LfgRolesMap} (hrole : ¬role &&& r.bit=0) (hne : role≠r.bit) :
    checkRole check dungeon it role r counters groles=
      match check (groles.set it (groles.roles it-r.bit)) with
      | none => Flow.exhausted
      | some (true,groles) => Flow.done true groles
      | some (false,groles) => Flow.go counters (groles.set it (groles.roles it+r.bit)) := by
  unfold checkRole
  rw [if_neg hrole,if_pos hne]

/-- The blocks of the roles, one after the other. -/
def checkRoles (check : LfgRolesMap → Option (Bool×LfgRolesMap)) (dungeon : LFGDungeonData)
    (it : Guid) (role : UInt8) : List Role → Counters → LfgRolesMap → Flow
  | [],counters,groles => Flow.go counters groles
  | r::rest,counters,groles =>
    match checkRole check dungeon it role r counters groles with
    | Flow.go counters groles => checkRoles check dungeon it role rest counters groles
    | Flow.done result groles => Flow.done result groles
    | Flow.exhausted => Flow.exhausted

/-- The loop over the map. -/
def checkPlayers (check : LfgRolesMap → Option (Bool×LfgRolesMap)) (dungeon : LFGDungeonData) :
    List Guid → Counters → LfgRolesMap → Option (Bool×LfgRolesMap)
  | [],counters,groles =>
    some (decide ((counters TANK).toNat+(counters HEALER).toNat+(counters DAMAGE).toNat=
      groles.keys.length%256),groles)
  | it::rest,counters,groles =>
    let role := groles.roles it&&&~~~PLAYER_ROLE_LEADER
    if role=0 then some (false,groles)
    else
      match checkRoles check dungeon it role [DAMAGE,HEALER,TANK] counters groles with
      | Flow.go counters groles => checkPlayers check dungeon rest counters groles
      | Flow.done result groles => some (result,groles)
      | Flow.exhausted => none

/-- A round of the loop. -/
theorem checkPlayers_cons (check : LfgRolesMap → Option (Bool×LfgRolesMap))
    (dungeon : LFGDungeonData) (it : Guid) (rest : List Guid) (counters : Counters)
    (groles : LfgRolesMap) :
    checkPlayers check dungeon (it::rest) counters groles=
      if groles.roles it &&& ~~~PLAYER_ROLE_LEADER=0 then some (false,groles)
      else
        match checkRoles check dungeon it (groles.roles it &&& ~~~PLAYER_ROLE_LEADER)
          [DAMAGE,HEALER,TANK] counters groles with
        | Flow.go counters groles => checkPlayers check dungeon rest counters groles
        | Flow.done result groles => some (result,groles)
        | Flow.exhausted => none := rfl

/-- `CheckGroupRoles` with a fuel for its recursion. -/
def checkGroupRoles (dungeon : LFGDungeonData) : ℕ → LfgRolesMap → Option (Bool×LfgRolesMap)
  | 0,_ => none
  | fuel+1,groles =>
    if groles.keys=[] then some (false,groles)
    else checkPlayers (checkGroupRoles dungeon fuel) dungeon groles.keys (fun _ => 0) groles

/-- The number of the roles in a mask. -/
def roleCount (mask : UInt8) : ℕ :=
  ([TANK,HEALER,DAMAGE].filter fun r => mask&&&r.bit≠0).length

/-- The number of all roles in a map. Every recursion is for one less. -/
def LfgRolesMap.roleCount (groles : LfgRolesMap) : ℕ :=
  (groles.keys.map fun guid => LfgModel.roleCount (groles.roles guid)).sum

def CheckGroupRoles (groles : LfgRolesMap) (dungeon : LFGDungeonData) : Bool×LfgRolesMap :=
  (checkGroupRoles dungeon (groles.roleCount+1) groles).getD (false,groles)

end Projectnelth.LfgModel
