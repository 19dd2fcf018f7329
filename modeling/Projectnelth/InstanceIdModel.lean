import Mathlib
import Projectnelth.RunInvariant

/-!
# Ids of instances

`MapManager` keeps a vector of flags for the ids that are in use, and the next id to give out. The
vector is grown where it is short, by a rule that looks at its capacity. What the vector has beyond
its size is left open. An index outside the vector ends the run.
-/

namespace Projectnelth.InstanceIdModel

/-- The number of values of a `uint32`. -/
def UINT32 : ℕ := 2^32

/-- `std::vector<bool>`: the flags, and the capacity beyond them. -/
structure InstanceIds where
  flags : List Bool
  /-- What the capacity exceeds the size by. -/
  spare : ℕ
  deriving DecidableEq, Repr

def InstanceIds.size (v : InstanceIds) : ℕ := v.flags.length

def InstanceIds.capacity (v : InstanceIds) : ℕ := v.size+v.spare

/-- `resize`, after which the capacity may be any that suffices. -/
def InstanceIds.resize (v : InstanceIds) (n spare : ℕ) : InstanceIds :=
  ⟨v.flags.take n++List.replicate (n-v.size) false,spare⟩

/-- A flag is written, if it is there. -/
def InstanceIds.put (v : InstanceIds) (i : ℕ) (flag : Bool) : Option InstanceIds :=
  if i < v.size then some ⟨v.flags.set i flag,v.spare⟩ else none

/-- The size that is asked for an id. -/
def sizeFor (id : ℕ) : ℕ := (id/32*32+if id%32 > 0 then 32 else 0)%UINT32

/-- `MapManager`, as far as it is about ids. -/
structure MapManager where
  instanceIds : InstanceIds
  nextInstanceId : ℕ
  /-- `World::StopNow` was called. -/
  stopped : Bool
  deriving DecidableEq, Repr

/-- `MapManager::InitInstanceIds`, for the highest id in the database or zero. -/
def initInstanceIds (maxId spare : ℕ) : MapManager where
  instanceIds := InstanceIds.resize ⟨[],0⟩ (sizeFor maxId) spare
  nextInstanceId := 1
  stopped := false

def MapManager.registerInstanceId (m : MapManager) (instanceId : ℕ) : Option MapManager :=
  (m.instanceIds.put instanceId true).map fun v => {m with instanceIds := v}

/-- The loop for the next free id, over a number of ids. -/
def InstanceIds.search (v : InstanceIds) : ℕ → ℕ → Option ℕ
  | 0,_ => none
  | n+1,i => if v.flags[i]?=some false ∨ i ≥ v.size then some i else v.search n (i+1)

/-- The vector after space was made for an id. -/
def InstanceIds.allocate (v : InstanceIds) (newInstanceId spare : ℕ) : InstanceIds :=
  if newInstanceId ≥ v.size%UINT32 then
    if v.size < v.capacity then v.resize v.capacity spare
    else v.resize (sizeFor newInstanceId) spare
  else v

def MapManager.generateInstanceId (m : MapManager) (spare : ℕ) : Option (ℕ×MapManager) :=
  let newInstanceId := m.nextInstanceId
  let first := (m.nextInstanceId+1)%UINT32
  let next := (m.instanceIds.search (0xFFFFFFFF-first) first).getD first
  let v := m.instanceIds.allocate newInstanceId spare
  (v.put newInstanceId true).map fun v =>
    (newInstanceId,⟨v,next,m.stopped || newInstanceId=next⟩)

def MapManager.freeInstanceId (m : MapManager) (instanceId : ℕ) : Option MapManager :=
  (m.instanceIds.put instanceId false).map fun v =>
    ⟨v,if instanceId < m.nextInstanceId then instanceId else m.nextInstanceId,m.stopped⟩

/-- The manager, with the ids that are in use. -/
structure World where
  manager : MapManager
  /-- The ids in use. -/
  live : List ℕ
  deriving DecidableEq, Repr

/-- A row of the loop of `LoadResetTimes`. -/
def World.load (w : World) (instanceId : ℕ) : Option World :=
  let m := w.manager
  let m := if m.nextInstanceId=instanceId then
    {m with nextInstanceId := (instanceId+1)%UINT32} else m
  (m.registerInstanceId instanceId).map fun m => ⟨m,instanceId::w.live⟩

/-- The manager after the ids of the database were loaded. -/
def loadInstanceIds (ids : List ℕ) (spare : ℕ) : Option World :=
  ids.foldlM World.load ⟨initInstanceIds (ids.getLast?.getD 0) spare,[]⟩

/-- What happens later. -/
inductive Action where
  /-- An id is generated, and the vector has a capacity beyond its size afterwards. -/
  | generate (spare : ℕ)
  /-- An id is freed. -/
  | free (instanceId : ℕ)
  deriving DecidableEq, Repr

/-- A call, which ends the run where it reads or writes outside the vector. -/
def World.act (w : World) : Action → Option World
  | .generate spare =>
    (w.manager.generateInstanceId spare).map fun (id,m) => ⟨m,id::w.live⟩
  | .free instanceId =>
    (w.manager.freeInstanceId instanceId).map fun m => ⟨m,w.live.filter (·≠instanceId)⟩

/-- A call in a run. -/
def step (s : Option World) (a : Action) : Option World := s.bind fun w => w.act a

end Projectnelth.InstanceIdModel
