import Mathlib

/-!
# Pools

A pool has a group of creatures, one of gameobjects and one of sub-pools;
`ActivePoolData` keeps what is spawned of each kind and, for each pool, how
many of its objects are. Pools are spawned and despawned through their groups,
which call back for their sub-pools; the recursion has a fuel, and `none` is a
run that used it up or an access behind the end of a vector. The random
numbers are an input, one record for each roll. Creatures and gameobjects in
the world, quest pools and the database are left out.
-/

namespace Projectnelth.PoolModel

/-- The kinds of members of a pool. -/
inductive Kind
  | Creature
  | GameObject
  | Pool
  deriving DecidableEq

structure PoolObject where
  /-- `guid`; of a sub-pool, its id. -/
  guid : ℕ
  chance : Float32

/-- `PoolGroup < T>`. -/
structure PoolGroup where
  ExplicitlyChanced : List PoolObject
  EqualChanced : List PoolObject

def PoolGroup.isEmpty (group : PoolGroup) : Bool :=
  group.ExplicitlyChanced.isEmpty && group.EqualChanced.isEmpty

/-- What `PoolMgr` loads. -/
structure PoolConfig where
  /-- `max_pool_id`, the last index of the vectors. -/
  max_pool_id : ℕ
  /-- `mPoolTemplate[pool].MaxLimit`. -/
  MaxLimit : ℕ → ℕ
  /-- `mPoolCreatureGroups`, `mPoolGameobjectGroups` and `mPoolPoolGroups`. -/
  groups : Kind → ℕ → PoolGroup
  /-- `mPoolSearchMap`: the pool that a sub-pool is part of. -/
  mPoolSearchMap : ℕ → Option ℕ

structure ActivePoolData where
  mSpawnedCreatures : Finset ℕ
  mSpawnedGameobjects : Finset ℕ
  /-- `mSpawnedPools`: the numbers of spawned objects, and with its keys also
  the set of spawned sub-pools. -/
  mSpawnedPools : ℕ → Option ℕ

namespace ActivePoolData

def GetActiveObjectCount (spawns : ActivePoolData) (pool_id : ℕ) : ℕ :=
  (spawns.mSpawnedPools pool_id).getD 0

/-- `IsActiveObject < T>`. -/
def IsActiveObject (spawns : ActivePoolData) : Kind → ℕ → Bool
  | Kind.Creature,db_guid => db_guid∈spawns.mSpawnedCreatures
  | Kind.GameObject,db_guid => db_guid∈spawns.mSpawnedGameobjects
  | Kind.Pool,sub_pool_id => (spawns.mSpawnedPools sub_pool_id).isSome

/-- `++mSpawnedPools[pool_id]`. -/
def increment (spawns : ActivePoolData) (pool_id : ℕ) : ActivePoolData :=
  { spawns with
    mSpawnedPools := Function.update spawns.mSpawnedPools pool_id
      (some (spawns.GetActiveObjectCount pool_id+1)) }

/-- `uint32& val = mSpawnedPools[pool_id]; if (val > 0) --val`. -/
def decrement (spawns : ActivePoolData) (pool_id : ℕ) : ActivePoolData :=
  { spawns with
    mSpawnedPools := Function.update spawns.mSpawnedPools pool_id
      (some (spawns.GetActiveObjectCount pool_id-1)) }

/-- `ActivateObject < T>`. -/
def ActivateObject (spawns : ActivePoolData) (kind : Kind) (guid pool_id : ℕ) : ActivePoolData :=
  match kind with
  | Kind.Creature =>
    { spawns with mSpawnedCreatures := insert guid spawns.mSpawnedCreatures }.increment pool_id
  | Kind.GameObject =>
    { spawns with mSpawnedGameobjects := insert guid spawns.mSpawnedGameobjects }.increment pool_id
  | Kind.Pool =>
    { spawns with mSpawnedPools := Function.update spawns.mSpawnedPools guid (some 0) }.increment
      pool_id

/-- `RemoveObject < T>`. -/
def RemoveObject (spawns : ActivePoolData) (kind : Kind) (guid pool_id : ℕ) : ActivePoolData :=
  match kind with
  | Kind.Creature =>
    { spawns with mSpawnedCreatures := spawns.mSpawnedCreatures.erase guid }.decrement pool_id
  | Kind.GameObject =>
    { spawns with mSpawnedGameobjects := spawns.mSpawnedGameobjects.erase guid }.decrement pool_id
  | Kind.Pool =>
    { spawns with mSpawnedPools := Function.update spawns.mSpawnedPools guid none }.decrement pool_id

end ActivePoolData

/-- The random numbers of one `RollOne`. -/
structure Roll where
  /-- `rand_chance()`. -/
  chance : Float32
  /-- The number that `irand` reduces to the range asked for. -/
  index : ℕ

/-- The spawn data and the random numbers to come; when they are used up the
rolls are 0. -/
structure State where
  /-- `mSpawnedData`. -/
  spawns : ActivePoolData
  /-- The random numbers to come. -/
  rolls : List Roll

/-- The loop of `RollOne` over `ExplicitlyChanced`. -/
def rollExplicit (spawns : ActivePoolData) (kind : Kind) (triggerFrom : ℕ) :
    Float32 → List PoolObject → Option PoolObject
  | _,[] => none
  | roll,obj::objs =>
    let roll := roll-obj.chance
    if roll < 0 ∧ (obj.guid=triggerFrom ∨ ¬ spawns.IsActiveObject kind obj.guid) then
      some obj
    else
      rollExplicit spawns kind triggerFrom roll objs

/-- The choice of `RollOne` in `EqualChanced`. -/
def rollEqual (spawns : ActivePoolData) (kind : Kind) (triggerFrom index : ℕ)
    (objs : List PoolObject) : Option PoolObject :=
  objs[index%objs.length]?.filter fun obj =>
    obj.guid=triggerFrom ∨ ¬ spawns.IsActiveObject kind obj.guid

def RollOne (group : PoolGroup) (kind : Kind) (triggerFrom : ℕ) (s : State) :
    Option PoolObject×State :=
  let roll := s.rolls.headD ⟨0,0⟩
  let obj :=
    (rollExplicit s.spawns kind triggerFrom roll.chance group.ExplicitlyChanced).or
      (rollEqual s.spawns kind triggerFrom roll.index group.EqualChanced)
  (obj,{ s with rolls := s.rolls.tail })

/-- A call back into `PoolMgr` for a sub-pool. -/
abbrev Callback := ℕ → State → Option State

/-- `Spawn1Object` and `Despawn1Object`: of creatures and gameobjects, which
are not modelled, or of a sub-pool. -/
def objectCall (callback : Callback) (kind : Kind) (guid : ℕ) (s : State) : Option State :=
  match kind with
  | Kind.Creature => some s
  | Kind.GameObject => some s
  | Kind.Pool => callback guid s

/-- A loop of `DespawnObject` over one of the two lists. -/
def despawnList (despawnPool : Callback) (kind : Kind) (poolId guid : ℕ) :
    List PoolObject → State → Option State
  | [],s => some s
  | obj::objs,s => do
    let s←
      if s.spawns.IsActiveObject kind obj.guid ∧ (guid=0 ∨ obj.guid=guid) then do
        let s←objectCall despawnPool kind obj.guid s
        some { s with spawns := s.spawns.RemoveObject kind obj.guid poolId }
      else
        some s
    despawnList despawnPool kind poolId guid objs s

def DespawnObject (despawnPool : Callback) (group : PoolGroup) (kind : Kind) (poolId guid : ℕ)
    (s : State) : Option State := do
  let s←despawnList despawnPool kind poolId guid group.EqualChanced s
  despawnList despawnPool kind poolId guid group.ExplicitlyChanced s

/-- The loop of `SpawnObject`, for the iterations that are left. -/
def spawnLoop (spawnPool despawnPool : Callback) (group : PoolGroup) (kind : Kind) (poolId : ℕ) :
    ℕ → (triggerFrom lastDespawned : ℕ) → State → Option State
  | 0,_,_,s => some s
  | i+1,triggerFrom,lastDespawned,s =>
    match RollOne group kind triggerFrom s with
    | (none,s) => spawnLoop spawnPool despawnPool group kind poolId i triggerFrom lastDespawned s
    | (some obj,s) =>
      if obj.guid=lastDespawned then
        spawnLoop spawnPool despawnPool group kind poolId i triggerFrom lastDespawned s
      else if obj.guid=triggerFrom then
        -- `ReSpawn1Object` only puts a creature or gameobject back on its map
        spawnLoop spawnPool despawnPool group kind poolId i 0 lastDespawned s
      else do
        let s := { s with spawns := s.spawns.ActivateObject kind obj.guid poolId }
        let s←objectCall spawnPool kind obj.guid s
        if triggerFrom≠0 then do
          let s←DespawnObject despawnPool group kind poolId triggerFrom s
          spawnLoop spawnPool despawnPool group kind poolId i 0 triggerFrom s
        else
          spawnLoop spawnPool despawnPool group kind poolId i triggerFrom lastDespawned s

/-- `SpawnObject`; the count is the 32-bit difference as an `int`. -/
def SpawnObject (spawnPool despawnPool : Callback) (group : PoolGroup) (kind : Kind)
    (poolId limit triggerFrom : ℕ) (s : State) : Option State :=
  let count := ((limit : ℤ)-s.spawns.GetActiveObjectCount poolId).bmod (2^32)
  let count := if triggerFrom≠0 then count+1 else count
  spawnLoop spawnPool despawnPool group kind poolId count.toNat triggerFrom 0 s

/-- `SpawnPool < T > (pool_id, db_guid_or_pool_id)`. -/
def SpawnPoolOf (cfg : PoolConfig) (spawnPool despawnPool : Callback) (kind : Kind)
    (pool_id guid : ℕ) (s : State) : Option State :=
  if pool_id > cfg.max_pool_id then
    none
  else if (cfg.groups kind pool_id).isEmpty then
    some s
  else
    SpawnObject spawnPool despawnPool (cfg.groups kind pool_id) kind pool_id
      (cfg.MaxLimit pool_id) guid s

/-- The call of `DespawnPool` for the group of one kind. -/
def despawnGroup (cfg : PoolConfig) (despawnPool : Callback) (kind : Kind) (pool_id : ℕ)
    (s : State) : Option State :=
  if pool_id > cfg.max_pool_id then
    none
  else if (cfg.groups kind pool_id).isEmpty then
    some s
  else
    DespawnObject despawnPool (cfg.groups kind pool_id) kind pool_id 0 s

def DespawnPool (cfg : PoolConfig) : ℕ → Callback
  | 0,_,_ => none
  | fuel+1,pool_id,s => do
    let s←despawnGroup cfg (DespawnPool cfg fuel) Kind.Creature pool_id s
    let s←despawnGroup cfg (DespawnPool cfg fuel) Kind.GameObject pool_id s
    despawnGroup cfg (DespawnPool cfg fuel) Kind.Pool pool_id s

/-- `SpawnPool(pool_id)`. -/
def SpawnPool (cfg : PoolConfig) : ℕ → Callback
  | 0,_,_ => none
  | fuel+1,pool_id,s => do
    let s←SpawnPoolOf cfg (SpawnPool cfg fuel) (DespawnPool cfg fuel) Kind.Pool pool_id 0 s
    let s←SpawnPoolOf cfg (SpawnPool cfg fuel) (DespawnPool cfg fuel) Kind.GameObject pool_id 0 s
    SpawnPoolOf cfg (SpawnPool cfg fuel) (DespawnPool cfg fuel) Kind.Creature pool_id 0 s

/-- `UpdatePool < T > (pool_id, db_guid_or_pool_id)`. -/
def UpdatePool (cfg : PoolConfig) (fuel : ℕ) (kind : Kind) (pool_id guid : ℕ) (s : State) :
    Option State :=
  let motherpoolid := (cfg.mPoolSearchMap pool_id).getD 0
  if motherpoolid≠0 then
    SpawnPoolOf cfg (SpawnPool cfg fuel) (DespawnPool cfg fuel) Kind.Pool motherpoolid pool_id s
  else
    SpawnPoolOf cfg (SpawnPool cfg fuel) (DespawnPool cfg fuel) kind pool_id guid s

/-- A call from outside of `PoolMgr`. -/
inductive Operation
  | SpawnPool (pool_id : ℕ)
  | DespawnPool (pool_id : ℕ)
  | UpdatePool (kind : Kind) (pool_id guid : ℕ)

/-- The call. The fuel is the depth that no acyclic configuration exceeds. -/
def perform (cfg : PoolConfig) (s : State) : Operation → Option State
  | Operation.SpawnPool pool_id => SpawnPool cfg (cfg.max_pool_id+2) pool_id s
  | Operation.DespawnPool pool_id => DespawnPool cfg (cfg.max_pool_id+2) pool_id s
  | Operation.UpdatePool kind pool_id guid => UpdatePool cfg (cfg.max_pool_id+2) kind pool_id guid s

/-- Nothing is spawned. -/
def State.empty (rolls : List Roll) : State := ⟨⟨∅,∅,fun _ => none⟩,rolls⟩

end Projectnelth.PoolModel
