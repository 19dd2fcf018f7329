import Mathlib
import Projectnelth.RunInvariant

/-!
# The database ids of groups

`GroupMgr` keeps the groups in a vector under their database ids and remembers the next id to give
out. Giving it out looks for the next free one behind it, and an id that comes back takes
its place if it is smaller. So the next id is the least free one, from one on; an id zero can
only come from the database.
-/

namespace Projectnelth.GroupDbIds

open RunInvariant

/-- A `Group`. -/
structure Group where
  /-- `m_guid`. -/
  guid : ℕ
  /-- `m_dbStoreId`. -/
  dbStoreId : UInt32
  deriving DecidableEq

structure GroupMgr where
  NextGroupDbStoreId : UInt32
  GroupDbStore : List (Option Group)

namespace GroupMgr

/-- The constructor. -/
def new : GroupMgr := ⟨1,[]⟩

def GetGroupByDbStoreId (mgr : GroupMgr) (storageId : UInt32) : Option Group :=
  if h : storageId.toNat < mgr.GroupDbStore.length then mgr.GroupDbStore[storageId.toNat] else none

/-- The test of the loop: the place is empty, or behind the end. -/
def isFree (mgr : GroupMgr) (i : UInt32) : Bool :=
  (i.toNat < mgr.GroupDbStore.length ∧ mgr.GroupDbStore[i.toNat]?=some none) ∨
    mgr.GroupDbStore.length ≤ i.toNat

/-- The loop of `GenerateNewGroupDbStoreId`: the first free id from `i` on, if it is below the
limit. -/
def nextFree (mgr : GroupMgr) (i : UInt32) : Option UInt32 :=
  if h : i < 0xFFFFFFFF then
    if mgr.isFree i then some i else nextFree mgr (i+1)
  else none
termination_by 0xFFFFFFFF-i.toNat
decreasing_by
  have hi : i.toNat < 0xFFFFFFFF := UInt32.lt_iff_toNat_lt.mp h
  have hnext : (i+1).toNat=i.toNat+1 := by
    rw [UInt32.toNat_add]
    exact Nat.mod_eq_of_lt (by rw [UInt32.toNat_one]; omega)
  omega

/-- `GenerateNewGroupDbStoreId`: the id, and whether the world is stopped. -/
def GenerateNewGroupDbStoreId (mgr : GroupMgr) : UInt32×GroupMgr×Bool :=
  let newStorageId := mgr.NextGroupDbStoreId
  let next := (mgr.nextFree (newStorageId+1)).getD (newStorageId+1)
  (newStorageId,{ mgr with NextGroupDbStoreId := next },newStorageId=next)

/-- `vector::resize`. -/
def resize (store : List (Option Group)) (n : ℕ) : List (Option Group) :=
  store.take n++List.replicate (n-store.length) none

/-- A write at an index, which has to be inside. -/
def write (mgr : GroupMgr) (storageId : UInt32) (group : Option Group) : Option GroupMgr :=
  if storageId.toNat < mgr.GroupDbStore.length then
    some { mgr with GroupDbStore := mgr.GroupDbStore.set storageId.toNat group }
  else none

def RegisterGroupDbStoreId (mgr : GroupMgr) (storageId : UInt32) (group : Group) :
    Option GroupMgr :=
  let store := mgr.GroupDbStore
  if storageId ≥ UInt32.ofNat store.length then
    { mgr with GroupDbStore := resize store (storageId+1).toNat }.write storageId (some group)
  else mgr.write storageId (some group)

def FreeGroupDbStoreId (mgr : GroupMgr) (group : Group) : Option GroupMgr :=
  let storageId := group.dbStoreId
  let next := if storageId < mgr.NextGroupDbStoreId then storageId else mgr.NextGroupDbStoreId
  { mgr with NextGroupDbStoreId := next }.write storageId none

/-- The loop of `LoadGroups` for one row. -/
def loadGroup (mgr : GroupMgr) (group : Group) : Option GroupMgr := do
  let mgr←mgr.RegisterGroupDbStoreId group.dbStoreId group
  return if group.dbStoreId=mgr.NextGroupDbStoreId then
    { mgr with NextGroupDbStoreId := mgr.NextGroupDbStoreId+1 } else mgr

end GroupMgr

/-- The manager, and the groups that are registered. -/
structure Server where
  mgr : GroupMgr
  registered : UInt32 → Option Group
  /-- A place outside the vector was written. -/
  fault : Bool

namespace Server

/-- The result of a call that registers or frees an id. -/
def after (s : Server) (result : Option GroupMgr) (id : UInt32) (group : Option Group) : Server :=
  match result with
  | none => { s with fault := true }
  | some mgr => { s with mgr := mgr,registered := Function.update s.registered id group }

/-- A row of the database is loaded. -/
def load (s : Server) (group : Group) : Server :=
  s.after (s.mgr.loadGroup group) group.dbStoreId (some group)

end Server

def LoadGroups (rows : List Group) : Server :=
  run Server.load ⟨GroupMgr.new,fun _ => none,false⟩ rows

/-- What happens to groups. -/
inductive Event
  /-- A group is created: an id is generated and registered. -/
  | create (guid : ℕ)
  /-- A group is disbanded. -/
  | disband (group : Group)
  deriving DecidableEq

/-- One event. -/
def step (s : Server) : Event → Server
  | Event.create guid =>
    let (id,mgr,_) := s.mgr.GenerateNewGroupDbStoreId
    { s with mgr := mgr }.after (mgr.RegisterGroupDbStoreId id ⟨guid,id⟩) id (some ⟨guid,id⟩)
  | Event.disband group => s.after (s.mgr.FreeGroupDbStoreId group) group.dbStoreId none

/-- A group is created while there is an id left behind the next one, and disbanded
while it is registered. -/
def Allowed (s : Server) : Event → Prop
  | Event.create _ =>
    ∃ id,id < 0xFFFFFFFF ∧ s.mgr.NextGroupDbStoreId < id ∧ s.registered id=none
  | Event.disband group => s.registered group.dbStoreId=some group

/-- The first id that is given out: one, or zero if the database has a group with it. -/
def firstId (rows : List Group) : UInt32 := if ∃ row∈rows,row.dbStoreId=0 then 0 else 1

/-- The next id in the numbers. -/
theorem toNat_succ {i : UInt32} (hi : i.toNat < 0xFFFFFFFF) : (i+1).toNat=i.toNat+1 := by
  rw [UInt32.toNat_add]
  exact Nat.mod_eq_of_lt (by rw [UInt32.toNat_one]; omega)

namespace GroupMgr

variable {mgr mgr' : GroupMgr} {id : UInt32} {group : Option Group}

theorem get_eq (mgr : GroupMgr) (id : UInt32) :
    mgr.GetGroupByDbStoreId id=(mgr.GroupDbStore[id.toNat]?).getD none := by
  rw [GetGroupByDbStoreId]
  split_ifs with h
  · rw [List.getElem?_eq_getElem h,Option.getD_some]
  · rw [List.getElem?_eq_none (by omega),Option.getD_none]

theorem isFree_iff : mgr.isFree id=true ↔ mgr.GetGroupByDbStoreId id=none := by
  rw [isFree,GetGroupByDbStoreId,decide_eq_true_iff]
  split_ifs with h
  · rw [List.getElem?_eq_getElem h]
    simp [h]
  · exact iff_of_true (Or.inr (by omega)) rfl

/-- The loop finds the least free id; by induction on its steps. -/
theorem nextFree_eq {i : UInt32}
    (hfree : ∃ id,i ≤ id ∧ id < 0xFFFFFFFF ∧ mgr.GetGroupByDbStoreId id=none) :
    ∃ next,mgr.nextFree i=some next ∧ i ≤ next ∧ mgr.GetGroupByDbStoreId next=none ∧
      ∀ id,i ≤ id → mgr.GetGroupByDbStoreId id=none → next ≤ id := by
  induction i using nextFree.induct mgr with
  | case1 i hi hthis =>
    refine ⟨i,?_,UInt32.le_refl i,isFree_iff.mp hthis,fun _ hle _ => hle⟩
    rw [nextFree,dif_pos hi,if_pos hthis]
  | case2 i hi htaken ih =>
    have hsucc := toNat_succ (UInt32.lt_iff_toNat_lt.mp hi)
    -- the id itself is taken, so a free one is behind it
    have hbehind : ∀ id,i ≤ id → mgr.GetGroupByDbStoreId id=none → i+1 ≤ id := by
      intro id hle hnone
      have hne : i.toNat≠id.toNat := by
        intro heq
        rw [UInt32.toNat_inj.mp heq] at htaken
        exact htaken (isFree_iff.mpr hnone)
      rw [UInt32.le_iff_toNat_le] at hle ⊢
      omega
    obtain ⟨id,hle,hlt,hnone⟩ := hfree
    obtain ⟨next,hnext,hi',hfree',hleast⟩ := ih ⟨id,hbehind id hle hnone,hlt,hnone⟩
    refine ⟨next,?_,?_,hfree',fun id hle hnone => hleast id (hbehind id hle hnone) hnone⟩
    · rw [nextFree,dif_pos hi,if_neg htaken,hnext]
    · rw [UInt32.le_iff_toNat_le] at hi' ⊢
      omega
  | case3 i hi =>
    obtain ⟨id,hle,hlt,-⟩ := hfree
    rw [UInt32.le_iff_toNat_le] at hle
    rw [UInt32.lt_iff_toNat_lt] at hi hlt
    omega

/-- A write inside changes one place. -/
theorem get_write (h : mgr.write id group=some mgr') (other : UInt32) :
    mgr'.GetGroupByDbStoreId other=
      Function.update mgr.GetGroupByDbStoreId id group other := by
  unfold write at h
  split_ifs at h with hlt
  obtain rfl := Option.some.inj h
  rw [get_eq,Function.update_apply,get_eq]
  by_cases heq : other=id
  · subst heq
    rw [if_pos rfl,List.getElem?_set_self hlt,Option.getD_some]
  · have hne : id.toNat≠other.toNat := fun hnat => heq (UInt32.toNat_inj.mp hnat).symm
    rw [if_neg heq,List.getElem?_set_ne hne]

theorem write_kept (h : mgr.write id group=some mgr') :
    mgr'.NextGroupDbStoreId=mgr.NextGroupDbStoreId ∧
      mgr'.GroupDbStore.length=mgr.GroupDbStore.length := by
  unfold write at h
  split_ifs at h
  obtain rfl := Option.some.inj h
  exact ⟨rfl,List.length_set⟩

theorem exists_write (hlt : id.toNat < mgr.GroupDbStore.length) (group : Option Group) :
    ∃ mgr',mgr.write id group=some mgr' := by
  rw [write,if_pos hlt]
  exact ⟨_,rfl⟩

theorem length_resize {store : List (Option Group)} {n : ℕ} (hle : store.length ≤ n) :
    (resize store n).length=n := by
  rw [resize,List.length_append,List.length_take,List.length_replicate]
  omega

/-- A longer vector has the same groups. -/
theorem get_resize {n : ℕ} (hle : mgr.GroupDbStore.length ≤ n) (other : UInt32) :
    GetGroupByDbStoreId { mgr with GroupDbStore := resize mgr.GroupDbStore n } other=
      mgr.GetGroupByDbStoreId other := by
  rw [get_eq,get_eq]
  show ((resize mgr.GroupDbStore n)[other.toNat]?).getD none=_
  rw [resize,List.take_of_length_le hle]
  by_cases hlt : other.toNat < mgr.GroupDbStore.length
  · rw [List.getElem?_append_left hlt]
  · rw [List.getElem?_append_right (by omega),List.getElem?_replicate,
      List.getElem?_eq_none (by omega)]
    split <;> rfl

/-- What registering does below the limit: the group is under its id and nothing else changes. -/
theorem register_eq (hsize : mgr.GroupDbStore.length ≤ 0xFFFFFFFF) (hid : id < 0xFFFFFFFF)
    (group : Group) :
    ∃ mgr',mgr.RegisterGroupDbStoreId id group=some mgr' ∧
      mgr'.NextGroupDbStoreId=mgr.NextGroupDbStoreId ∧
      mgr'.GroupDbStore.length ≤ 0xFFFFFFFF ∧
      mgr'.GetGroupByDbStoreId=Function.update mgr.GetGroupByDbStoreId id (some group) := by
  rw [UInt32.lt_iff_toNat_lt] at hid
  have hid' : id.toNat < 0xFFFFFFFF := hid
  have hlength : (UInt32.ofNat mgr.GroupDbStore.length).toNat=mgr.GroupDbStore.length := by
    rw [UInt32.toNat_ofNat']
    exact Nat.mod_eq_of_lt (by omega)
  rw [RegisterGroupDbStoreId]
  by_cases hbehind : id ≥ UInt32.ofNat mgr.GroupDbStore.length
  · rw [if_pos hbehind,toNat_succ hid']
    rw [ge_iff_le,UInt32.le_iff_toNat_le,hlength] at hbehind
    have hresize := @length_resize mgr.GroupDbStore (id.toNat+1) (by omega)
    obtain ⟨mgr',hmgr'⟩ := @exists_write
      { mgr with GroupDbStore := resize mgr.GroupDbStore (id.toNat+1) } id
      (by rw [hresize]; omega) (some group)
    obtain ⟨hnext,hsize'⟩ := write_kept hmgr'
    refine ⟨mgr',hmgr',hnext,by rw [hsize',hresize]; omega,?_⟩
    funext other
    rw [get_write hmgr']
    congr 1
    funext other
    exact get_resize (by omega) other
  · rw [if_neg hbehind]
    rw [ge_iff_le,UInt32.le_iff_toNat_le,hlength] at hbehind
    obtain ⟨mgr',hmgr'⟩ := @exists_write mgr id (by omega) (some group)
    obtain ⟨hnext,hsize'⟩ := write_kept hmgr'
    exact ⟨mgr',hmgr',hnext,hsize'.trans_le hsize,funext (get_write hmgr')⟩

end GroupMgr

/-- The vector is the registry, and the groups know their ids. -/
structure Kept (s : Server) : Prop where
  fault : s.fault=false
  get : s.mgr.GetGroupByDbStoreId=s.registered
  /-- The vector is within the limit. -/
  size : s.mgr.GroupDbStore.length ≤ 0xFFFFFFFF
  own : ∀ id group,s.registered id=some group → group.dbStoreId=id

/-- The ids from `first` on without a registered group. -/
def Free (first : UInt32) (registered : UInt32 → Option Group) : Set UInt32 :=
  {id | first ≤ id ∧ registered id=none}

/-- The manager is in order: the next id is the least free one. -/
structure Ok (first : UInt32) (s : Server) : Prop extends Kept s where
  least : IsLeast (Free first s.registered) s.mgr.NextGroupDbStoreId
  low : ∀ id,s.registered id≠none → first ≤ id

variable {s : Server} {first : UInt32} {rows : List Group}

/-- A group is put under a free id; this keeps the registry. -/
theorem Kept.register (h : Kept s) {group : Group} (hlimit : group.dbStoreId < 0xFFFFFFFF) :
    ∃ mgr,s.mgr.RegisterGroupDbStoreId group.dbStoreId group=some mgr ∧
      mgr.NextGroupDbStoreId=s.mgr.NextGroupDbStoreId ∧
      ∀ next,Kept ⟨{ mgr with NextGroupDbStoreId := next },
        Function.update s.registered group.dbStoreId (some group),s.fault⟩ := by
  obtain ⟨mgr,hmgr,hnext,hsize,hget⟩ := GroupMgr.register_eq h.size hlimit group
  refine ⟨mgr,hmgr,hnext,fun next => ⟨h.fault,?_,hsize,fun id other hother => ?_⟩⟩
  · show mgr.GetGroupByDbStoreId=_
    rw [hget,h.get]
  change Function.update _ _ _ id=_ at hother
  rw [Function.update_apply] at hother
  split_ifs at hother with heq
  · rw [← Option.some.inj hother,heq]
  · exact h.own id other hother

theorem kept_new : Kept ⟨GroupMgr.new,fun _ => none,false⟩ :=
  ⟨rfl,funext fun _ => rfl,Nat.zero_le _,fun _ _ h => by cases h⟩

/-- A row with an id above all others: the next id moves on if it is this one. -/
theorem Kept.load (h : Kept s) (hleast : IsLeast (Free 1 s.registered) s.mgr.NextGroupDbStoreId)
    {group : Group} (hlimit : group.dbStoreId < 0xFFFFFFFF)
    (habove : ∀ id,s.registered id≠none → id < group.dbStoreId) :
    Kept (s.load group) ∧
      IsLeast (Free 1 (s.load group).registered) (s.load group).mgr.NextGroupDbStoreId ∧
      (s.load group).registered=Function.update s.registered group.dbStoreId (some group) := by
  obtain ⟨mgr,hmgr,hnext,hkept⟩ := h.register hlimit
  have hload : s.load group=⟨{ mgr with NextGroupDbStoreId :=
      if group.dbStoreId=s.mgr.NextGroupDbStoreId then s.mgr.NextGroupDbStoreId+1
      else s.mgr.NextGroupDbStoreId },
      Function.update s.registered group.dbStoreId (some group),s.fault⟩ := by
    rw [Server.load,GroupMgr.loadGroup,hmgr,Option.bind_eq_bind,Option.bind_some,hnext]
    split_ifs
    · rfl
    · rw [← hnext]
      rfl
  rw [hload]
  refine ⟨hkept _,?_,rfl⟩
  dsimp only
  obtain ⟨⟨hone,hfree⟩,hlow⟩ := hleast
  rw [UInt32.le_iff_toNat_le] at hone
  split_ifs with hown
  · rw [hown] at hlimit habove ⊢
    have hsucc := toNat_succ (UInt32.lt_iff_toNat_lt.mp hlimit)
    refine ⟨⟨?_,?_⟩,fun id ⟨hid,hnone⟩ => ?_⟩
    · rw [UInt32.le_iff_toNat_le]
      omega
    · rw [Function.update_of_ne fun heq => ?_]
      · by_contra htaken
        have hlt := habove _ htaken
        rw [UInt32.lt_iff_toNat_lt] at hlt
        omega
      · have hnat := congrArg UInt32.toNat heq
        omega
    · rw [Function.update_apply] at hnone
      split_ifs at hnone with heq
      have hle := hlow ⟨hid,hnone⟩
      have hne : id.toNat≠s.mgr.NextGroupDbStoreId.toNat := fun hnat => heq (UInt32.toNat_inj.mp hnat)
      rw [UInt32.le_iff_toNat_le] at hle ⊢
      omega
  · refine ⟨⟨UInt32.le_iff_toNat_le.mpr hone,?_⟩,fun id ⟨hid,hnone⟩ => ?_⟩
    · rw [Function.update_of_ne (Ne.symm hown),hfree]
    · rw [Function.update_apply] at hnone
      split_ifs at hnone
      exact hlow ⟨hid,hnone⟩

theorem Kept.loads (h : Kept s) (hleast : IsLeast (Free 1 s.registered) s.mgr.NextGroupDbStoreId)
    (hasc : rows.Pairwise fun row row' => row.dbStoreId < row'.dbStoreId)
    (hlimit : ∀ row∈rows,row.dbStoreId < 0xFFFFFFFF)
    (habove : ∀ row∈rows,∀ id,s.registered id≠none → id < row.dbStoreId) :
    Kept (run Server.load s rows) ∧
      IsLeast (Free 1 (run Server.load s rows).registered)
        (run Server.load s rows).mgr.NextGroupDbStoreId ∧
      ∀ id,(run Server.load s rows).registered id≠none ↔
        s.registered id≠none ∨ ∃ row∈rows,row.dbStoreId=id := by
  induction rows generalizing s with
  | nil => exact ⟨h,hleast,fun id => by simp [run]⟩
  | cons row rows ih =>
    obtain ⟨hfirst,hrest⟩ := List.pairwise_cons.mp hasc
    obtain ⟨hkept,hleast',hregistered⟩ := h.load hleast (hlimit row List.mem_cons_self)
      (habove row List.mem_cons_self)
    have htaken : ∀ id,(s.load row).registered id≠none ↔
        s.registered id≠none ∨ row.dbStoreId=id := by
      intro id
      rw [hregistered,Function.update_apply]
      split_ifs with heq
      · exact iff_of_true (by simp) (Or.inr heq.symm)
      · rw [or_iff_left (Ne.symm heq)]
    obtain ⟨hkept',hleast'',htaken'⟩ := ih hkept hleast' hrest
      (fun row' hrow' => hlimit row' (List.mem_cons_of_mem row hrow'))
      (fun row' hrow' id hid => by
        rcases (htaken id).mp hid with hid | rfl
        · exact habove row' (List.mem_cons_of_mem row hrow') id hid
        · exact hfirst row' hrow')
    refine ⟨hkept',hleast'',fun id => ?_⟩
    show (run Server.load (s.load row) rows).registered id≠none ↔ _
    rw [htaken' id,htaken id,or_assoc]
    simp

/-- After loading, the manager is in order. -/
theorem ok_LoadGroups (hasc : rows.Pairwise fun row row' => row.dbStoreId < row'.dbStoreId)
    (hlimit : ∀ row∈rows,row.dbStoreId < 0xFFFFFFFF) : Ok (firstId rows) (LoadGroups rows) := by
  have hnew : IsLeast (Free 1 fun _ => none) 1 :=
    ⟨⟨UInt32.le_refl 1,rfl⟩,fun id hid => hid.1⟩
  obtain ⟨hkept,hleast,htaken⟩ := kept_new.loads hnew hasc hlimit
    (fun _ _ id hid => absurd rfl hid)
  have hrows : ∀ id,(LoadGroups rows).registered id≠none ↔ ∃ row∈rows,row.dbStoreId=id :=
    fun id => (htaken id).trans (or_iff_right (not_not.mpr rfl))
  rw [firstId]
  split_ifs with hzero
  · refine ⟨hkept,⟨⟨UInt32.zero_le,hleast.1.2⟩,fun id ⟨_,hnone⟩ => hleast.2 ⟨?_,hnone⟩⟩,
      fun _ _ => UInt32.zero_le⟩
    have hne : id.toNat≠0 := by
      intro hid
      rw [show id=0 from UInt32.toNat_inj.mp hid] at hnone
      exact (hrows 0).mpr hzero hnone
    rw [UInt32.le_iff_toNat_le,UInt32.toNat_one]
    omega
  · refine ⟨hkept,hleast,fun id hid => ?_⟩
    have hne : id.toNat≠0 := by
      intro hnat
      rw [show id=0 from UInt32.toNat_inj.mp hnat] at hid
      exact hzero ((hrows 0).mp hid)
    rw [UInt32.le_iff_toNat_le,UInt32.toNat_one]
    omega

/-- Creating a group gives out the next id and finds the least free one behind it. -/
theorem Ok.create (h : Ok first s) {guid : ℕ} (hallowed : Allowed s (Event.create guid)) :
    Ok first (step s (Event.create guid)) := by
  obtain ⟨id,hlimit,hbehind,hnone⟩ := hallowed
  obtain ⟨⟨hfirst,hfree⟩,hlow⟩ := h.least
  have hid : s.mgr.NextGroupDbStoreId < 0xFFFFFFFF := by
    rw [UInt32.lt_iff_toNat_lt] at hlimit hbehind ⊢
    omega
  have hsucc := toNat_succ (UInt32.lt_iff_toNat_lt.mp hid)
  obtain ⟨next,hnext,hle,hfree',hleast⟩ := @GroupMgr.nextFree_eq s.mgr (s.mgr.NextGroupDbStoreId+1)
    ⟨id,by rw [UInt32.lt_iff_toNat_lt] at hbehind; rw [UInt32.le_iff_toNat_le]; omega,hlimit,
      by rw [h.get]; exact hnone⟩
  rw [h.get] at hfree' hleast
  rw [UInt32.le_iff_toNat_le,hsucc] at hle
  have hmoved : Kept { s with mgr := { s.mgr with NextGroupDbStoreId := next } } :=
    ⟨h.fault,h.get,h.size,h.own⟩
  obtain ⟨mgr,hmgr,hkept,hall⟩ :=
    @Kept.register _ hmoved ⟨guid,s.mgr.NextGroupDbStoreId⟩ hid
  have hstep : step s (Event.create guid)=⟨mgr,Function.update s.registered
      s.mgr.NextGroupDbStoreId (some ⟨guid,s.mgr.NextGroupDbStoreId⟩),s.fault⟩ := by
    rw [step,GroupMgr.GenerateNewGroupDbStoreId,hnext]
    dsimp only [Option.getD_some]
    rw [hmgr]
    rfl
  have hne : next≠s.mgr.NextGroupDbStoreId := fun heq => by
    rw [heq] at hle
    omega
  rw [hstep]
  refine ⟨?_,⟨⟨?_,?_⟩,fun other ⟨hother,hothers⟩ => ?_⟩,fun other hother => ?_⟩
  · have := hall mgr.NextGroupDbStoreId
    exact this
  · show first ≤ mgr.NextGroupDbStoreId
    rw [hkept]
    rw [UInt32.le_iff_toNat_le] at hfirst ⊢
    exact hfirst.trans (by show _ ≤ next.toNat; omega)
  · show Function.update s.registered _ (some _) mgr.NextGroupDbStoreId=none
    rw [hkept,Function.update_of_ne hne]
    exact hfree'
  · show mgr.NextGroupDbStoreId ≤ other
    change Function.update s.registered _ (some _) other=none at hothers
    rw [Function.update_apply] at hothers
    split_ifs at hothers with heq
    rw [hkept]
    refine hleast other ?_ hothers
    have hge := hlow ⟨hother,hothers⟩
    have hnat : other.toNat≠s.mgr.NextGroupDbStoreId.toNat :=
      fun hnat => heq (UInt32.toNat_inj.mp hnat)
    rw [UInt32.le_iff_toNat_le] at hge ⊢
    omega
  · change Function.update s.registered _ (some _) other≠none at hother
    rw [Function.update_apply] at hother
    split_ifs at hother with heq
    · rw [heq]
      exact hfirst
    · exact h.low other hother

/-- A disbanded group's id takes the place of the next one if it is smaller. -/
theorem Ok.disband (h : Ok first s) {group : Group} (hallowed : Allowed s (Event.disband group)) :
    Ok first (step s (Event.disband group)) := by
  obtain ⟨⟨hfirst,hfree⟩,hlow⟩ := h.least
  have hregistered : s.registered group.dbStoreId=some group := hallowed
  have hinside : group.dbStoreId.toNat < s.mgr.GroupDbStore.length := by
    by_contra hout
    rw [← h.get,GroupMgr.GetGroupByDbStoreId,dif_neg hout] at hregistered
    cases hregistered
  obtain ⟨mgr,hmgr⟩ := @GroupMgr.exists_write { s.mgr with NextGroupDbStoreId :=
    if group.dbStoreId < s.mgr.NextGroupDbStoreId then group.dbStoreId
    else s.mgr.NextGroupDbStoreId } group.dbStoreId hinside none
  obtain ⟨hnext,hsize⟩ := GroupMgr.write_kept hmgr
  have hstep : step s (Event.disband group)=
      ⟨mgr,Function.update s.registered group.dbStoreId none,s.fault⟩ := by
    rw [step,GroupMgr.FreeGroupDbStoreId,hmgr]
    rfl
  have hget : mgr.GetGroupByDbStoreId=Function.update s.registered group.dbStoreId none := by
    funext other
    rw [GroupMgr.get_write hmgr,← h.get]
    rfl
  have hne : group.dbStoreId≠s.mgr.NextGroupDbStoreId := by
    intro heq
    rw [heq,hfree] at hregistered
    cases hregistered
  rw [hstep]
  refine ⟨⟨h.fault,hget,hsize.trans_le h.size,fun id other hother => ?_⟩,⟨⟨?_,?_⟩,
    fun other ⟨hother,hothers⟩ => ?_⟩,fun other hother => ?_⟩
  · change Function.update s.registered _ none id=_ at hother
    rw [Function.update_apply] at hother
    split_ifs at hother
    exact h.own id other hother
  · show first ≤ mgr.NextGroupDbStoreId
    rw [hnext]
    dsimp only
    split_ifs
    · exact h.low _ (by rw [hregistered]; exact Option.some_ne_none _)
    · exact hfirst
  · show Function.update s.registered _ none mgr.NextGroupDbStoreId=none
    rw [hnext]
    dsimp only
    split_ifs
    · exact Function.update_self _ _ _
    · rw [Function.update_of_ne (Ne.symm hne),hfree]
  · show mgr.NextGroupDbStoreId ≤ other
    change Function.update s.registered _ none other=none at hothers
    rw [Function.update_apply] at hothers
    rw [hnext]
    dsimp only
    split_ifs at hothers with heq
    · rw [heq]
      split_ifs with hlt
      · exact UInt32.le_refl _
      · rw [UInt32.lt_iff_toNat_lt] at hlt
        rw [UInt32.le_iff_toNat_le]
        omega
    · have hge := hlow ⟨hother,hothers⟩
      split_ifs with hlt
      · rw [UInt32.lt_iff_toNat_lt] at hlt
        rw [UInt32.le_iff_toNat_le] at hge ⊢
        omega
      · exact hge
  · change Function.update s.registered _ none other≠none at hother
    rw [Function.update_apply] at hother
    split_ifs at hother
    · exact absurd rfl hother
    · exact h.low other hother

theorem Ok.step (h : Ok first s) {e : Event} (hallowed : Allowed s e) : Ok first (step s e) := by
  cases e with
  | create guid => exact h.create hallowed
  | disband group => exact h.disband hallowed

/-- In every run the next id is the least one without a registered group, from one on or, if the
database has a group with the id zero, from zero on. The id generated next is free, and the
groups are found under their ids. -/
theorem group_ids (hasc : rows.Pairwise fun row row' => row.dbStoreId < row'.dbStoreId)
    (hlimit : ∀ row∈rows,row.dbStoreId < 0xFFFFFFFF) {events : List Event}
    (hrun : Meets GroupDbIds.step Allowed (LoadGroups rows) events) :
    let s := run GroupDbIds.step (LoadGroups rows) events
    s.fault=false ∧
      IsLeast {id | firstId rows ≤ id ∧ s.registered id=none} s.mgr.NextGroupDbStoreId ∧
      (∀ id group,s.registered id=some group →
        group.dbStoreId=id ∧ s.mgr.GenerateNewGroupDbStoreId.1≠id) ∧
      ∀ id,s.mgr.GetGroupByDbStoreId id=s.registered id := by
  have hok : Ok (firstId rows) (run GroupDbIds.step (LoadGroups rows) events) :=
    run_invariant (I := Ok (firstId rows)) (fun s e h hallowed => h.step hallowed)
      (ok_LoadGroups hasc hlimit) hrun
  refine ⟨hok.fault,hok.least,fun id group hgroup => ⟨hok.own id group hgroup,?_⟩,
    fun id => congrFun hok.get id⟩
  rintro rfl
  have hnone : (run GroupDbIds.step (LoadGroups rows) events).registered
      (run GroupDbIds.step (LoadGroups rows) events).mgr.NextGroupDbStoreId=none := hok.least.1.2
  rw [show (run GroupDbIds.step (LoadGroups rows) events).mgr.GenerateNewGroupDbStoreId.1=
    (run GroupDbIds.step (LoadGroups rows) events).mgr.NextGroupDbStoreId from rfl,hnone] at hgroup
  cases hgroup

/-- One group is disbanded and another one created in its place. -/
theorem group_ids_sample :
    let s := run GroupDbIds.step (LoadGroups [⟨10,1⟩,⟨11,3⟩])
      [Event.disband ⟨10,1⟩,Event.create 12]
    s.fault=false ∧
      IsLeast {id | firstId [⟨10,1⟩,⟨11,3⟩] ≤ id ∧ s.registered id=none}
        s.mgr.NextGroupDbStoreId ∧
      (∀ id group,s.registered id=some group →
        group.dbStoreId=id ∧ s.mgr.GenerateNewGroupDbStoreId.1≠id) ∧
      ∀ id,s.mgr.GetGroupByDbStoreId id=s.registered id :=
  group_ids (by decide) (by decide) ⟨rfl,⟨4,by decide,by decide,rfl⟩,trivial⟩

/-- When the group with the id zero is disbanded, the next id is zero. -/
theorem zero_comes_back :
    Meets GroupDbIds.step Allowed (LoadGroups [⟨10,0⟩]) [Event.disband ⟨10,0⟩] ∧
      ¬IsLeast {id | 1 ≤ id ∧
          (run GroupDbIds.step (LoadGroups [⟨10,0⟩]) [Event.disband ⟨10,0⟩]).registered id=none}
        (run GroupDbIds.step (LoadGroups [⟨10,0⟩])
          [Event.disband ⟨10,0⟩]).mgr.NextGroupDbStoreId :=
  ⟨⟨rfl,trivial⟩,fun hleast => absurd hleast.1.1 (by decide)⟩

end Projectnelth.GroupDbIds
