import Mathlib
import Projectnelth.InstanceIdModel

/-!
# Instance ids over whole runs

The next id is the least one that is not in use, and the flags are those of the ids in use, as long
as the vector covers each id that is marked. It does not where the highest id of the database, or an
id for which a full vector is grown, is a multiple of the word size.
-/

namespace Projectnelth.InstanceIdModel

open RunInvariant

variable {v v' : InstanceIds} {m : MapManager} {w : World} {i j n id spare : ℕ}

/-! ## The vector -/

@[simp] theorem size_resize : (v.resize n spare).size=n := by
  simp only [InstanceIds.resize,InstanceIds.size,List.length_append,List.length_take,
    List.length_replicate]
  omega

/-- Growing sets no flags, and keeps those that are set. -/
theorem flags_resize (hsize : ∀ i,v.flags[i]?=some true → i < n) :
    (v.resize n spare).flags[i]?=some true ↔ v.flags[i]?=some true := by
  unfold InstanceIds.resize
  dsimp only
  rw [List.getElem?_append,List.length_take,List.getElem?_take,List.getElem?_replicate]
  constructor
  · intro h
    split at h
    · split at h
      · exact h
      · cases h
    · split at h <;> cases h
  · intro h
    have hlt := hsize i h
    have hin := (List.getElem?_eq_some_iff.mp h).1
    rw [if_pos (by omega),if_pos hlt]
    exact h

theorem put_eq_some (hlt : i < v.size) (flag : Bool) :
    v.put i flag=some ⟨v.flags.set i flag,v.spare⟩ := if_pos hlt

/-- Setting a flag sets no other. -/
theorem flags_put {flag : Bool} (h : v.put i flag=some v') :
    v'.flags[j]?=some true ↔ if j=i then flag=true else v.flags[j]?=some true := by
  unfold InstanceIds.put at h
  split at h
  · rename_i hlt
    obtain rfl := Option.some.inj h
    rw [List.getElem?_set]
    unfold InstanceIds.size at hlt
    by_cases hij : i=j
    · rw [if_pos hij,if_pos hij.symm,if_pos (by omega)]
      exact Option.some_inj
    · rw [if_neg hij,if_neg fun h => hij h.symm]
  · cases h

/-- The test of the search. -/
theorem free_iff : v.flags[i]?=some false ∨ i ≥ v.size ↔ v.flags[i]?≠some true := by
  unfold InstanceIds.size
  cases h : v.flags[i]? with
  | none =>
    have hout := List.getElem?_eq_none_iff.mp h
    simp [hout]
  | some flag =>
    have hin := (List.getElem?_eq_some_iff.mp h).1
    cases flag <;> simp [hin]

/-- The search finds the first id that is not in use. -/
theorem search_eq_some (h : v.search n i=some j) :
    i ≤ j ∧ v.flags[j]?≠some true ∧ ∀ k,i ≤ k → k < j → v.flags[k]?=some true := by
  induction n generalizing i with
  | zero => cases h
  | succ n ih =>
    unfold InstanceIds.search at h
    split at h
    · rename_i hfree
      obtain rfl := Option.some.inj h
      exact ⟨le_refl i,free_iff.mp hfree,fun k hle hlt => by omega⟩
    · rename_i hused
      obtain ⟨hle,hfree,hbetween⟩ := ih h
      refine ⟨by omega,hfree,fun k hik hkj => ?_⟩
      rcases Nat.eq_or_lt_of_le hik with rfl | hlt
      · exact not_not.mp fun hne => hused (free_iff.mpr hne)
      · exact hbetween k hlt hkj

/-- It finds one if there is one. -/
theorem search_isSome (hij : i ≤ j) (hj : j < i+n) (hfree : v.flags[j]?≠some true) :
    (v.search n i).isSome=true := by
  induction n generalizing i with
  | zero => omega
  | succ n ih =>
    unfold InstanceIds.search
    split
    · rfl
    · rename_i hused
      have hne : i≠j := fun heq => hused (free_iff.mpr (by rw [heq]; exact hfree))
      exact ih (by omega) (by omega)

/-! ## The invariant -/

/-- What holds of the ids. -/
structure Good (w : World) : Prop where
  /-- The next id is not zero, -/
  next_pos : 1 ≤ w.manager.nextInstanceId
  /-- it is not in use, -/
  next_free : w.manager.nextInstanceId∉w.live
  next_least : ∀ id,1 ≤ id → id < w.manager.nextInstanceId → id∈w.live
  flags : ∀ id,w.manager.instanceIds.flags[id]?=some true ↔ id∈w.live

/-- The ids in use are inside the vector. -/
theorem Good.lt_size (h : Good w) (hid : id∈w.live) : id < w.manager.instanceIds.size :=
  (List.getElem?_eq_some_iff.mp ((h.flags id).mpr hid)).1

/-- Marking the next id, with a further one that is not in use as the next. -/
theorem Good.take (h : Good w) {next : ℕ} {stopped : Bool}
    (hflags : ∀ id,v.flags[id]?=some true ↔ id∈w.live)
    (hput : v.put w.manager.nextInstanceId true=some v') (hlt : w.manager.nextInstanceId < next)
    (hfree : next∉w.live) (hbetween : ∀ k,w.manager.nextInstanceId < k → k < next → k∈w.live) :
    Good ⟨⟨v',next,stopped⟩,w.manager.nextInstanceId::w.live⟩ := by
  have hpos := h.next_pos
  constructor
  · dsimp only
    omega
  · dsimp only
    rw [List.mem_cons,not_or]
    exact ⟨hlt.ne',hfree⟩
  · intro id hone hid
    dsimp only at hid
    rcases lt_trichotomy id w.manager.nextInstanceId with hless | heq | hmore
    · exact List.mem_cons_of_mem _ (h.next_least id hone hless)
    · rw [heq]
      exact List.mem_cons_self
    · exact List.mem_cons_of_mem _ (hbetween id hmore hid)
  · intro id
    dsimp only
    rw [flags_put hput,List.mem_cons]
    split
    · rename_i heq
      simp [heq]
    · rename_i hne
      simp [hne,hflags id]

/-! ## Loading -/

/-- The vector covers an id up to the one it was sized for, unless this fills its last word. -/
theorem lt_sizeFor (hid : id ≤ n) (hn : n < 2^31) (hword : n%32≠0) : id < sizeFor n := by
  unfold sizeFor UINT32
  rw [if_pos (by omega),Nat.mod_eq_of_lt (by omega)]
  omega

/-- A row of the database, with an id above those so far. -/
theorem Good.load (h : Good w) (habove : ∀ k∈w.live,k < id)
    (hlt : id < w.manager.instanceIds.size) (hfits : id+1 < UINT32) :
    ∃ w',w.load id=some w' ∧ Good w' ∧ w'.live=id::w.live ∧
      w'.manager.instanceIds.size=w.manager.instanceIds.size := by
  have hpos := h.next_pos
  have hput := put_eq_some hlt true
  have hsize : InstanceIds.size ⟨w.manager.instanceIds.flags.set id true,
      w.manager.instanceIds.spare⟩=w.manager.instanceIds.size := by
    unfold InstanceIds.size
    exact List.length_set
  unfold World.load MapManager.registerInstanceId
  dsimp only
  by_cases hnext : w.manager.nextInstanceId=id
  · rw [if_pos hnext]
    dsimp only
    rw [hput,Nat.mod_eq_of_lt hfits]
    refine ⟨_,rfl,?_,rfl,hsize⟩
    subst hnext
    refine h.take h.flags hput (Nat.lt_succ_self _) (fun hmem => ?_) fun k _ _ => by omega
    have hlow := habove _ hmem
    omega
  · rw [if_neg hnext,hput]
    refine ⟨_,rfl,?_,rfl,hsize⟩
    -- an id that is not the next one is zero or above the next one
    have hless : id=0 ∨ w.manager.nextInstanceId < id := by
      rcases Nat.lt_or_gt_of_ne hnext with hlt | hgt
      · exact Or.inr hlt
      · by_cases hzero : id=0
        · exact Or.inl hzero
        · exact absurd (habove id (h.next_least id (by omega) hgt)) (lt_irrefl id)
    constructor
    · exact hpos
    · dsimp only
      rw [List.mem_cons,not_or]
      exact ⟨hnext,h.next_free⟩
    · exact fun k hone hk => List.mem_cons_of_mem _ (h.next_least k hone hk)
    intro k
    dsimp only
    rw [flags_put hput,List.mem_cons]
    split
    · rename_i heq
      simp [heq]
    · rename_i hne
      simp [hne,h.flags k]

theorem Good.loadAll {ids : List ℕ} (h : Good w) (hsorted : ids.Pairwise fun a b => a < b)
    (habove : ∀ id∈ids,∀ k∈w.live,k < id)
    (hfits : ∀ id∈ids,id < w.manager.instanceIds.size ∧ id+1 < UINT32) :
    ∃ w',ids.foldlM World.load w=some w' ∧ Good w' := by
  induction ids generalizing w with
  | nil => exact ⟨w,rfl,h⟩
  | cons id ids ih =>
    obtain ⟨hfirst,hsorted⟩ := List.pairwise_cons.mp hsorted
    obtain ⟨hlt,hbound⟩ := hfits id List.mem_cons_self
    obtain ⟨w',hload,hgood,hlive,hsize⟩ := h.load (habove id List.mem_cons_self) hlt hbound
    rw [List.foldlM_cons,hload]
    refine ih hgood hsorted ?_ ?_
    · intro next hnext k hk
      rw [hlive] at hk
      rcases List.mem_cons.mp hk with rfl | hk
      · exact hfirst next hnext
      · exact habove next (List.mem_cons_of_mem id hnext) k hk
    · intro next hnext
      rw [hsize]
      exact hfits next (List.mem_cons_of_mem id hnext)

/-- The highest id of the database does not fill a word, if there is one. -/
def Loadable (ids : List ℕ) : Prop := ids=[] ∨ ids.getLast?.getD 0%32≠0

instance (ids : List ℕ) : Decidable (Loadable ids) := inferInstanceAs (Decidable (_ ∨ _))

theorem good_loadInstanceIds {ids : List ℕ} (hsorted : ids.Pairwise fun a b => a < b)
    (hbound : ∀ id∈ids,id < 2^31) (hload : Loadable ids) (spare : ℕ) :
    ∃ w,loadInstanceIds ids spare=some w ∧ Good w := by
  refine Good.loadAll ?_ hsorted (fun _ _ k hk => absurd hk List.not_mem_nil) fun id hid => ?_
  · constructor
    · exact le_refl 1
    · exact List.not_mem_nil
    · intro id hone hid
      dsimp only [initInstanceIds] at hid
      omega
    · intro id
      dsimp only [initInstanceIds]
      rw [flags_resize (fun i h => by cases i <;> cases h)]
      cases id <;> simp
  · have hword := hload.resolve_left (List.ne_nil_of_mem hid)
    have hlast : id ≤ ids.getLast?.getD 0 := by
      rw [List.getLast?_eq_some_getLast (List.ne_nil_of_mem hid),Option.getD_some]
      exact (hsorted.imp le_of_lt).rel_getLast hid
    have hlastbound : ids.getLast?.getD 0 < 2^31 := by
      rw [List.getLast?_eq_some_getLast (List.ne_nil_of_mem hid),Option.getD_some]
      exact hbound _ (List.getLast_mem _)
    refine ⟨?_,?_⟩
    · dsimp only [initInstanceIds]
      rw [size_resize]
      exact lt_sizeFor hlast hlastbound hword
    · have hlt := hbound id hid
      unfold UINT32
      omega

/-! ## Later calls -/

/-- Before an id is generated: the vector has it, or has the capacity for it, or is full and grows
for it since it does not begin a word. And a further id is free. -/
structure Roomy (w : World) : Prop where
  /-- Some id above the next one is free. -/
  further : ∃ id < 0xFFFFFFFF,w.manager.nextInstanceId < id ∧ id∉w.live
  vector : w.manager.nextInstanceId < w.manager.instanceIds.size%UINT32 ∨
    w.manager.instanceIds.size < w.manager.instanceIds.capacity ∧
      w.manager.nextInstanceId < w.manager.instanceIds.capacity ∨
    w.manager.instanceIds.size=w.manager.instanceIds.capacity ∧
      w.manager.nextInstanceId%32≠0 ∧ w.manager.nextInstanceId < UINT32-32 ∧
      ∀ id∈w.live,id < w.manager.nextInstanceId/32*32+32

/-- What is asked of a call. -/
def Allowed : Option World → Action → Prop
  | some w,.generate _ => Roomy w
  | some w,.free instanceId => instanceId∈w.live ∧ instanceId≠0
  | none,_ => False

/-- Where there is room, the vector has the next id after space was made, and keeps the flags. -/
theorem Good.allocate (h : Good w) (hroomy : Roomy w) (spare : ℕ) :
    w.manager.nextInstanceId <
        (w.manager.instanceIds.allocate w.manager.nextInstanceId spare).size ∧
      ∀ id,(w.manager.instanceIds.allocate w.manager.nextInstanceId spare).flags[id]?=some true ↔
        id∈w.live := by
  have hmod := Nat.mod_le w.manager.instanceIds.size UINT32
  have hgrow : ∀ n,(∀ id∈w.live,id < n) → ∀ id,
      (w.manager.instanceIds.resize n spare).flags[id]?=some true ↔ id∈w.live := by
    intro n hn id
    rw [flags_resize fun i hi => hn i ((h.flags i).mp hi),h.flags id]
  unfold InstanceIds.allocate
  split
  · rename_i hout
    split
    · rename_i hspare
      refine ⟨?_,hgrow _ fun id hid => (h.lt_size hid).trans hspare⟩
      rw [size_resize]
      rcases hroomy.vector with hin | ⟨_,hcapacity⟩ | ⟨hfull,_⟩
      · omega
      · exact hcapacity
      · omega
    · rename_i hfull
      have hthird : w.manager.nextInstanceId%32≠0 ∧ w.manager.nextInstanceId < UINT32-32 ∧
          ∀ id∈w.live,id < w.manager.nextInstanceId/32*32+32 := by
        rcases hroomy.vector with hin | ⟨hspare,_⟩ | ⟨_,hgrows⟩
        · omega
        · exact absurd hspare hfull
        · exact hgrows
      obtain ⟨hword,hbound,hlive⟩ := hthird
      have hsize : sizeFor w.manager.nextInstanceId=w.manager.nextInstanceId/32*32+32 := by
        unfold sizeFor
        rw [if_pos (by omega)]
        unfold UINT32 at hbound ⊢
        exact Nat.mod_eq_of_lt (by omega)
      rw [hsize]
      refine ⟨?_,hgrow _ hlive⟩
      rw [size_resize]
      omega
  · rename_i hin
    exact ⟨by omega,h.flags⟩

theorem Good.generate (h : Good w) (hroomy : Roomy w) (spare : ℕ) :
    ∃ m,w.manager.generateInstanceId spare=some (w.manager.nextInstanceId,m) ∧
      Good ⟨m,w.manager.nextInstanceId::w.live⟩ := by
  obtain ⟨hlt,hflags⟩ := h.allocate hroomy spare
  obtain ⟨id,hid,habove,hfree⟩ := hroomy.further
  have hfirst : (w.manager.nextInstanceId+1)%UINT32=w.manager.nextInstanceId+1 :=
    Nat.mod_eq_of_lt (by unfold UINT32; omega)
  have hsome := search_isSome (v := w.manager.instanceIds) (i := w.manager.nextInstanceId+1)
    (n := 0xFFFFFFFF-(w.manager.nextInstanceId+1)) (j := id) (by omega) (by omega)
    (fun hset => hfree ((h.flags id).mp hset))
  obtain ⟨next,hnext⟩ := Option.isSome_iff_exists.mp hsome
  obtain ⟨hle,hnextfree,hbetween⟩ := search_eq_some hnext
  unfold MapManager.generateInstanceId
  dsimp only
  rw [hfirst,hnext,put_eq_some hlt]
  refine ⟨_,rfl,h.take hflags (put_eq_some hlt true) (by simpa using hle)
    (fun hmem => hnextfree ((h.flags _).mpr hmem)) fun k hk hk' => ?_⟩
  exact (h.flags k).mp (hbetween k hk hk')

/-- Freeing an id makes it the next one if it is lower. -/
theorem Good.free (h : Good w) (hlive : id∈w.live) (hzero : id≠0) :
    ∃ m,w.manager.freeInstanceId id=some m ∧ Good ⟨m,w.live.filter (·≠id)⟩ := by
  have hput := put_eq_some (h.lt_size hlive) false
  unfold MapManager.freeInstanceId
  rw [hput]
  refine ⟨_,rfl,?_⟩
  have hmem : ∀ k,k∈w.live.filter (·≠id) ↔ k∈w.live ∧ k≠id := by simp
  have hpos := h.next_pos
  constructor
  · dsimp only
    split <;> omega
  · dsimp only
    rw [hmem]
    split
    · exact fun hboth => hboth.2 rfl
    · exact fun hboth => h.next_free hboth.1
  · intro k hone hk
    dsimp only at hk ⊢
    rw [hmem]
    split at hk
    · exact ⟨h.next_least k hone (by omega),by omega⟩
    · exact ⟨h.next_least k hone hk,by omega⟩
  · intro k
    dsimp only
    rw [flags_put hput,hmem]
    split
    · rename_i heq
      simp [heq]
    · rename_i hne
      simp [hne,h.flags k]

/-! ## Runs -/

/-- The run has not left the vector, the ids are as they should be, and what is generated next is
not in use. -/
structure Sound (s : Option World) : Prop where
  good : ∃ w,s=some w ∧ Good w
  fresh : ∀ w,s=some w → ∀ spare id m,w.manager.generateInstanceId spare=some (id,m) → id∉w.live

theorem sound_some (h : Good w) : Sound (some w) := by
  refine ⟨⟨w,rfl,h⟩,fun w' hw spare id m hgenerate => ?_⟩
  obtain rfl := Option.some.inj hw
  unfold MapManager.generateInstanceId at hgenerate
  obtain ⟨_,_,heq⟩ := Option.map_eq_some_iff.mp hgenerate
  obtain rfl : w.manager.nextInstanceId=id := congrArg Prod.fst heq
  exact h.next_free

theorem Sound.after {s : Option World} (h : Sound s) {a : Action} (hallowed : Allowed s a) :
    Sound (step s a) := by
  obtain ⟨w,rfl,hgood⟩ := h.good
  cases a with
  | generate spare =>
    obtain ⟨m,hgenerate,hnew⟩ := hgood.generate hallowed spare
    have hstep : step (some w) (.generate spare)=
        some ⟨m,w.manager.nextInstanceId::w.live⟩ := by
      simp only [step,Option.bind_some,World.act,hgenerate,Option.map_some]
    rw [hstep]
    exact sound_some hnew
  | free instanceId =>
    obtain ⟨m,hfree,hnew⟩ := hgood.free hallowed.1 hallowed.2
    have hstep : step (some w) (.free instanceId)=
        some ⟨m,w.live.filter (·≠instanceId)⟩ := by
      simp only [step,Option.bind_some,World.act,hfree,Option.map_some]
    rw [hstep]
    exact sound_some hnew

/-- In every run of generating and freeing from any ids of the database, whatever capacities the
vector gets, no index leaves the vector, the next id is the least that is not in use, the flags are
those of the ids in use and what is generated is new, if each step meets the condition. -/
theorem ids_not_shared (ids : List ℕ) (hsorted : ids.Pairwise fun a b => a < b)
    (hbound : ∀ id∈ids,id < 2^31) (hload : Loadable ids) (spare : ℕ) (actions : List Action)
    (hallowed : Meets step Allowed (loadInstanceIds ids spare) actions) :
    Sound (run step (loadInstanceIds ids spare) actions) := by
  obtain ⟨w,hw,hgood⟩ := good_loadInstanceIds hsorted hbound hload spare
  refine run_invariant (fun s a hs => hs.after) ?_ hallowed
  rw [hw]
  exact sound_some hgood

/-- After the database had two ids. -/
def pairWorld : World where
  manager := ⟨⟨false::true::true::List.replicate 29 false,0⟩,3,false⟩
  live := [2,1]

/-- Two ids, a generated one and a freed one. -/
theorem ids_not_shared_pair : Sound (run step (loadInstanceIds [1,2] 0) [.generate 0,.free 1]) := by
  have hload : loadInstanceIds [1,2] 0=some pairWorld := by decide +kernel
  refine ids_not_shared [1,2] (by decide) (by decide) (by decide) 0 _ ?_
  rw [hload]
  refine ⟨?_,?_,trivial⟩
  · exact ⟨⟨4,by decide,by decide,by decide⟩,Or.inl (by decide)⟩
  have hgenerate : step (some pairWorld) (.generate 0)=
      some ⟨⟨⟨false::true::true::true::List.replicate 28 false,0⟩,4,false⟩,[3,2,1]⟩ := by
    decide +kernel
  rw [hgenerate]
  exact ⟨by decide,by decide⟩

/-- The id of a row that is a full word is outside the vector, and so is a generated id at which a
full vector does not grow. -/
theorem ids_leave_vector : ¬Sound (run step (loadInstanceIds [32] 0) []) ∧
    ¬Sound (run step (loadInstanceIds [] 0) (List.replicate 32 (.generate 0))) := by
  have hnone : ¬Sound none := by
    intro h
    obtain ⟨w,hw,_⟩ := h.good
    cases hw
  have hload : run step (loadInstanceIds [32] 0) []=none := by decide +kernel
  have hfull : run step (loadInstanceIds [] 0) (List.replicate 32 (.generate 0))=none := by
    decide +kernel
  rw [hload,hfull]
  exact ⟨hnone,hnone⟩

end Projectnelth.InstanceIdModel
