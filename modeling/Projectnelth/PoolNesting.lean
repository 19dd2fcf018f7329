import Mathlib
import Projectnelth.ParentMap
import Projectnelth.PoolCounting
import Projectnelth.WhileLoop

/-!
# Pools of pools

`LoadFromDB` reads the rows of `pool_pool`. A row goes into the group of the mother, and into the
search map, where the first mother of a pool stays. Then the search map is followed from each pool
but the last one; where it comes back to a pool, the last link is removed from the map and from the
group of the mother. The chance of a row is the value of a float; logs and counts are left out.
-/

namespace Projectnelth.PoolNesting

open PoolModel PoolCounting ParentMap WhileLoop

/-- A row of `pool_pool`. -/
structure PoolRow where
  pool_id : ℕ
  mother_pool : ℕ
  chance : ℚ

def AddEntry (group : PoolGroup) (poolitem : PoolObject) (maxentries : ℕ) : PoolGroup :=
  if poolitem.chance != 0 && maxentries == 1 then
    { group with ExplicitlyChanced := group.ExplicitlyChanced++[poolitem] }
  else
    { group with EqualChanced := group.EqualChanced++[poolitem] }

def RemoveOneRelation (group : PoolGroup) (child_pool_id : ℕ) : PoolGroup :=
  { ExplicitlyChanced := group.ExplicitlyChanced.eraseP fun obj => obj.guid=child_pool_id
    EqualChanced := group.EqualChanced.eraseP fun obj => obj.guid=child_pool_id }

/-- Another group of sub-pools for a pool. -/
def setPoolGroup (cfg : PoolConfig) (pool : ℕ) (group : PoolGroup) : PoolConfig :=
  { cfg with
    groups := Function.update cfg.groups Kind.Pool
      (Function.update (cfg.groups Kind.Pool) pool group) }

/-- Before the rows are read there are no sub-pools. -/
def Initialize (cfg : PoolConfig) : PoolConfig :=
  { cfg with
    groups := Function.update cfg.groups Kind.Pool fun _ => ⟨[],[]⟩
    mPoolSearchMap := fun _ => none }

section Load

variable (float : ℚ → Float32) (cfg : PoolConfig) (rows : List PoolRow)

/-- The object of a row. -/
def PoolRow.object (row : PoolRow) : PoolObject := ⟨row.pool_id,(float row.chance).abs⟩

/-- A row of the loop. -/
def addRow (row : PoolRow) : PoolConfig :=
  if row.mother_pool > cfg.max_pool_id then cfg
  else if row.pool_id > cfg.max_pool_id then cfg
  else if row.mother_pool=row.pool_id then cfg
  else if row.chance < 0 ∨ row.chance > 100 then cfg
  else
    let plgroup := AddEntry (cfg.groups Kind.Pool row.mother_pool) (row.object float)
      (cfg.MaxLimit row.mother_pool)
    { setPoolGroup cfg row.mother_pool plgroup with
      mPoolSearchMap :=
        if (cfg.mPoolSearchMap row.pool_id).isSome then cfg.mPoolSearchMap
        else Function.update cfg.mPoolSearchMap row.pool_id (some row.mother_pool) }

/-- `mPoolSearchMap.find`: the key and the value. -/
def find (pool : ℕ) : Option (ℕ×ℕ) := (cfg.mPoolSearchMap pool).map fun mother => (pool,mother)

/-- Where the search for a circular reference is. -/
structure Check where
  cfg : PoolConfig
  checkedPools : Finset ℕ
  poolItr : Option (ℕ×ℕ)

/-- A link is removed. -/
def removeLink (child mother : ℕ) : PoolConfig :=
  let group := RemoveOneRelation (cfg.groups Kind.Pool mother) child
  { setPoolGroup cfg mother group with
    mPoolSearchMap := Function.update cfg.mPoolSearchMap child none }

/-- A round of the inner loop, and whether it goes on. -/
def checkRound (c : Check) : Check×Bool :=
  match c.poolItr with
  | none => (c,false)
  | some (first,second) =>
    let checkedPools := insert first c.checkedPools
    if second∈checkedPools then
      (⟨removeLink c.cfg first second,checkedPools,c.poolItr⟩,false)
    else
      (⟨c.cfg,checkedPools,find c.cfg second⟩,true)

/-- The inner loop from a pool leads from the first configuration to the second one. -/
def CheckPool (i : ℕ) (cfg cfg' : PoolConfig) : Prop :=
  ∃ c,Runs (fun c => c.poolItr.isSome) checkRound ⟨cfg,∅,find cfg i⟩ c ∧ cfg'=c.cfg

/-- The outer loop over the pools that are left. -/
def CheckPools : List ℕ → PoolConfig → PoolConfig → Prop
  | [],cfg,cfg' => cfg'=cfg
  | i::pools,cfg,cfg' => ∃ cfg₁,CheckPool i cfg cfg₁ ∧ CheckPools pools cfg₁ cfg'

/-- The pools of pools are loaded. -/
def LoadPools (cfg' : PoolConfig) : Prop :=
  CheckPools (List.range cfg.max_pool_id) (rows.foldl (addRow float) (Initialize cfg)) cfg'

/-- A pool is listed in the group of another one. -/
def Listed (child mother : ℕ) : Prop := child∈members cfg Kind.Pool mother

/-- What is to hold of pools of pools. -/
structure Nested : Prop where
  /-- No pool is below itself. -/
  acyclic : ∀ pool,¬Relation.TransGen (Listed cfg) pool pool
  coincide : ∀ child mother,Listed cfg child mother ↔ cfg.mPoolSearchMap child=some mother
  /-- Spawning and despawning end. -/
  ends : ∀ pool ≤ cfg.max_pool_id,∃ fuel,∀ s,
    (SpawnPool cfg fuel pool s).isSome ∧ (DespawnPool cfg fuel pool s).isSome ∧
      ∀ kind guid,(SpawnPoolOf cfg (SpawnPool cfg fuel) (DespawnPool cfg fuel) kind pool guid
        s).isSome

/-- The search for circular references ends, and the pools are nested. -/
def Kept : Prop :=
  (∃ cfg',LoadPools float cfg rows cfg') ∧ ∀ cfg',LoadPools float cfg rows cfg' → Nested cfg'

/-- The checks of a row. -/
def PoolRow.passes (row : PoolRow) : Bool :=
  row.mother_pool ≤ cfg.max_pool_id ∧ row.pool_id ≤ cfg.max_pool_id ∧
    row.mother_pool≠row.pool_id ∧ 0 ≤ row.chance ∧ row.chance ≤ 100

/-- A row goes to the objects with a chance of their own. -/
def PoolRow.explicit (row : PoolRow) : Bool :=
  (row.object float).chance != 0 && cfg.MaxLimit row.mother_pool == 1

/-- The rows that are read. -/
def passing : List PoolRow := rows.filter (PoolRow.passes cfg)

/-- The mother in the first row of a pool. -/
def firstMother (child : ℕ) : Option ℕ :=
  ((passing cfg rows).find? fun row => row.pool_id=child).map PoolRow.mother_pool

/-- What the rows have to be. -/
structure Nestable : Prop where
  oneMother : ∀ row∈passing cfg rows,∀ row'∈passing cfg rows,row.pool_id=row'.pool_id →
    row.mother_pool=row'.mother_pool
  /-- Where the link of a pool to its mother closes a cycle, the pool has one row at most with a
  chance of its own and one at most without. -/
  once : ∀ child,Closes (firstMother cfg rows) cfg.max_pool_id child → ∀ own : Bool,
    ((passing cfg rows).filter fun row => row.pool_id=child ∧ row.explicit float cfg=own).length ≤ 1

end Load

end Projectnelth.PoolNesting
