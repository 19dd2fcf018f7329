import Mathlib
import Projectnelth.PoolCounting
import Projectnelth.RunInvariant

/-!
# Spawning and despawning keep the count

A call for a pool changes what is active in the pool and below it only. So
the pool that spawns a sub-pool finds its own members, the sub-pool among them,
as it left them, and the loop of `SpawnObject` has to watch nothing but its own
count: it never exceeds the limit by more than the triggering object, and that
one goes in the same iteration.
-/

namespace Projectnelth.PoolAccounting

open PoolModel PoolCounting RunInvariant

variable {cfg : PoolConfig} {rank : ℕ → ℕ}

/-- Pools of rank `n` and more have the same active members. -/
def Above (cfg : PoolConfig) (rank : ℕ → ℕ) (n : ℕ) (spawns spawns' : ActivePoolData) : Prop :=
  ∀ pool,n ≤ rank pool → ∀ kind guid,guid∈members cfg kind pool →
    (spawns'.IsActiveObject kind guid ↔ spawns.IsActiveObject kind guid)

theorem Above.trans {n : ℕ} {s t u : ActivePoolData} (h : Above cfg rank n s t)
    (h' : Above cfg rank n t u) : Above cfg rank n s u :=
  fun pool hn kind guid hmem => (h' pool hn kind guid hmem).trans (h pool hn kind guid hmem)

theorem Above.mono {n m : ℕ} {s t : ActivePoolData} (h : Above cfg rank n s t) (hnm : n ≤ m) :
    Above cfg rank m s t :=
  fun pool hm => h pool (hnm.trans hm)

theorem Above.count {n : ℕ} {s t : ActivePoolData} (h : Above cfg rank n s t) {pool : ℕ}
    (hn : n ≤ rank pool) : activeCount cfg t pool=activeCount cfg s pool :=
  activeCount_congr fun kind guid hmem => Bool.eq_iff_iff.mpr (h pool hn kind guid hmem)

/-- A pool stays present under calls for pools of lower rank. -/
theorem Above.present (hr : Ranked cfg rank) {n : ℕ} {s t : ActivePoolData}
    (h : Above cfg rank n s t) {pool : ℕ} (hn : n ≤ rank pool+1) (hp : Present cfg s pool) :
    Present cfg t pool :=
  fun mother hmem =>
    (h mother (hn.trans (hr.below hmem)) Kind.Pool pool hmem).mpr (hp mother hmem)

/-- What despawning may do: nothing becomes active. -/
structure Despawned (cfg : PoolConfig) (rank : ℕ → ℕ) (n : ℕ) (spawns spawns' : ActivePoolData) :
    Prop where
  counted : Counted cfg spawns'
  /-- Nothing changes higher up. -/
  above : Above cfg rank n spawns spawns'
  /-- Nothing becomes active. -/
  fewer : ∀ kind guid pool,guid∈members cfg kind pool →
    spawns'.IsActiveObject kind guid → spawns.IsActiveObject kind guid

/-- What spawning may do: counts grow up to the limit. -/
structure Spawned (cfg : PoolConfig) (rank : ℕ → ℕ) (n : ℕ) (spawns spawns' : ActivePoolData) :
    Prop where
  counted : Counted cfg spawns'
  /-- Nothing changes higher up. -/
  above : Above cfg rank n spawns spawns'
  /-- Counts grow up to the limit. -/
  tight : ∀ pool,
    activeCount cfg spawns' pool ≤ max (activeCount cfg spawns pool) (cfg.MaxLimit pool)

theorem Despawned.refl {n : ℕ} {s : ActivePoolData} (h : Counted cfg s) :
    Despawned cfg rank n s s :=
  ⟨h,fun _ _ _ _ _ => Iff.rfl,fun _ _ _ _ h => h⟩

theorem Spawned.refl {n : ℕ} {s : ActivePoolData} (h : Counted cfg s) : Spawned cfg rank n s s :=
  ⟨h,fun _ _ _ _ _ => Iff.rfl,fun _ => le_max_left _ _⟩

theorem Spawned.trans {n : ℕ} {s t u : ActivePoolData} (h : Spawned cfg rank n s t)
    (h' : Spawned cfg rank n t u) : Spawned cfg rank n s u :=
  ⟨h'.counted,h.above.trans h'.above,fun pool =>
    (h'.tight pool).trans (max_le (h.tight pool) (le_max_right _ _))⟩

theorem Spawned.mono {n m : ℕ} {s t : ActivePoolData} (h : Spawned cfg rank n s t) (hnm : n ≤ m) :
    Spawned cfg rank m s t :=
  ⟨h.counted,h.above.mono hnm,h.tight⟩

theorem Despawned.spawned {n : ℕ} {s t : ActivePoolData} (h : Despawned cfg rank n s t) :
    Spawned cfg rank n s t :=
  ⟨h.counted,h.above,fun pool =>
    (activeCount_le fun kind guid hmem => h.fewer kind guid pool hmem).trans (le_max_left _ _)⟩

/-- A callback that empties every sub-pool below a rank. -/
def DespawnsBelow (cfg : PoolConfig) (rank : ℕ → ℕ) (r : ℕ) (despawnPool : Callback) : Prop :=
  ∀ pool s,pool ≤ cfg.max_pool_id → rank pool < r → Counted cfg s.spawns →
    ∃ s',despawnPool pool s=some s' ∧ Despawned cfg rank (rank pool+1) s.spawns s'.spawns ∧
      activeCount cfg s'.spawns pool=0

/-- A callback that spawns every present pool below a rank. -/
def SpawnsBelow (cfg : PoolConfig) (rank : ℕ → ℕ) (r : ℕ) (spawnPool : Callback) : Prop :=
  ∀ pool s,pool ≤ cfg.max_pool_id → rank pool < r → Counted cfg s.spawns →
    Present cfg s.spawns pool → activeCount cfg s.spawns pool ≤ cfg.MaxLimit pool →
    ∃ s',spawnPool pool s=some s' ∧ Spawned cfg rank (rank pool+1) s.spawns s'.spawns

/-- A loop of `DespawnObject` makes exactly the members asked for inactive. -/
theorem despawnList_spec (hr : Ranked cfg rank) {r : ℕ} {despawnPool : Callback}
    (hd : DespawnsBelow cfg rank r despawnPool) {kind : Kind} {pool : ℕ} (hrank : rank pool ≤ r)
    (guid : ℕ) {objs : List PoolObject} (hobjs : ∀ obj∈objs,obj.guid∈members cfg kind pool)
    {s : State} (hs : Counted cfg s.spawns) :
    ∃ s',despawnList despawnPool kind pool guid objs s=some s' ∧ Counted cfg s'.spawns ∧
      (∀ kind' guid' pool',guid'∈members cfg kind' pool' →
        s'.spawns.IsActiveObject kind' guid' → s.spawns.IsActiveObject kind' guid') ∧
      ∀ kind' guid' pool',rank pool ≤ rank pool' → guid'∈members cfg kind' pool' →
        (s'.spawns.IsActiveObject kind' guid' ↔ s.spawns.IsActiveObject kind' guid' ∧
          ¬ (kind'=kind ∧ guid'∈objs.map PoolObject.guid ∧ (guid=0 ∨ guid'=guid))) := by
  induction objs generalizing s with
  | nil =>
    refine ⟨s,rfl,hs,fun _ _ _ _ h => h,fun kind' guid' pool' _ _ => ?_⟩
    simp only [List.map_nil,List.not_mem_nil,false_and,and_false,not_false_iff,and_true]
  | cons obj objs ih =>
    have hmem := hobjs obj List.mem_cons_self
    have hobjs' := fun o ho => hobjs o (List.mem_cons_of_mem obj ho)
    by_cases hsel : s.spawns.IsActiveObject kind obj.guid ∧ (guid=0 ∨ obj.guid=guid)
    · -- the object is emptied, if it is a sub-pool, and removed
      have hcall : ∃ s₁,objectCall despawnPool kind obj.guid s=some s₁ ∧
          Despawned cfg rank (rank pool) s.spawns s₁.spawns ∧
            (kind=Kind.Pool → activeCount cfg s₁.spawns obj.guid=0) := by
        cases kind with
        | Creature => exact ⟨s,rfl,Despawned.refl hs,(by rintro ⟨⟩)⟩
        | GameObject => exact ⟨s,rfl,Despawned.refl hs,(by rintro ⟨⟩)⟩
        | Pool =>
          have hlt := hr.below hmem
          obtain ⟨s₁,hcall,hdes,hzero⟩ :=
            hd obj.guid s (hr.sub_le hmem) (Nat.lt_of_lt_of_le hlt hrank) hs
          exact ⟨s₁,hcall,⟨hdes.counted,hdes.above.mono hlt,hdes.fewer⟩,fun _ => hzero⟩
      obtain ⟨s₁,hcall,hdes,hzero⟩ := hcall
      have hactive : s₁.spawns.IsActiveObject kind obj.guid :=
        (hdes.above pool le_rfl kind obj.guid hmem).mpr hsel.1
      have hrem := hdes.counted.remove hr hmem hactive hzero
      obtain ⟨s',hrest,hcounted,hfewer,hflags⟩ :=
        @ih hobjs' { s₁ with spawns := s₁.spawns.RemoveObject kind obj.guid pool } hrem.counted
      refine ⟨s',?_,hcounted,fun kind' guid' pool' hm ha => ?_,fun kind' guid' pool' hp hm => ?_⟩
      · simp only [despawnList,if_pos hsel,hcall,Option.bind_eq_bind,Option.bind_some]
        exact hrest
      · exact hdes.fewer kind' guid' pool' hm
          ((hrem.active kind' guid' pool' hm).mp (hfewer kind' guid' pool' hm ha)).1
      rw [hflags kind' guid' pool' hp hm,hrem.active kind' guid' pool' hm,
        hdes.above pool' hp kind' guid' hm,List.map_cons,List.mem_cons]
      have := hsel.2
      grind
    · obtain ⟨s',hrest,hcounted,hfewer,hflags⟩ := ih hobjs' hs
      refine ⟨s',?_,hcounted,hfewer,fun kind' guid' pool' hp hm => ?_⟩
      · simp only [despawnList,if_neg hsel,Option.bind_eq_bind,Option.bind_some]
        exact hrest
      · rw [hflags kind' guid' pool' hp hm,List.map_cons,List.mem_cons]
        grind

/-- `DespawnObject` makes exactly the members asked for inactive. -/
theorem DespawnObject_spec (hr : Ranked cfg rank) {r : ℕ} {despawnPool : Callback}
    (hd : DespawnsBelow cfg rank r despawnPool) (kind : Kind) {pool : ℕ} (hrank : rank pool ≤ r)
    (guid : ℕ) {s : State} (hs : Counted cfg s.spawns) :
    ∃ s',DespawnObject despawnPool (cfg.groups kind pool) kind pool guid s=some s' ∧
      Counted cfg s'.spawns ∧
      (∀ kind' guid' pool',guid'∈members cfg kind' pool' →
        s'.spawns.IsActiveObject kind' guid' → s.spawns.IsActiveObject kind' guid') ∧
      ∀ kind' guid' pool',rank pool ≤ rank pool' → guid'∈members cfg kind' pool' →
        (s'.spawns.IsActiveObject kind' guid' ↔ s.spawns.IsActiveObject kind' guid' ∧
          ¬ (kind'=kind ∧ guid'∈members cfg kind pool ∧ (guid=0 ∨ guid'=guid))) := by
  have hequal : ∀ obj∈(cfg.groups kind pool).EqualChanced,obj.guid∈members cfg kind pool :=
    fun obj hobj => List.mem_map_of_mem (List.mem_append_left _ hobj)
  have hexplicit : ∀ obj∈(cfg.groups kind pool).ExplicitlyChanced,
      obj.guid∈members cfg kind pool :=
    fun obj hobj => List.mem_map_of_mem (List.mem_append_right _ hobj)
  obtain ⟨s₁,h₁,hc₁,hf₁,ha₁⟩ := despawnList_spec hr hd hrank guid hequal hs
  obtain ⟨s₂,h₂,hc₂,hf₂,ha₂⟩ := despawnList_spec hr hd hrank guid hexplicit hc₁
  refine ⟨s₂,?_,hc₂,fun kind' guid' pool' hm ha => ?_,fun kind' guid' pool' hp hm => ?_⟩
  · rw [DespawnObject,h₁]
    exact h₂
  · exact hf₁ kind' guid' pool' hm (hf₂ kind' guid' pool' hm ha)
  · rw [ha₂ kind' guid' pool' hp hm,ha₁ kind' guid' pool' hp hm,members,List.map_append,
      List.mem_append]
    grind

theorem despawnGroup_spec (hr : Ranked cfg rank) {r : ℕ} {despawnPool : Callback}
    (hd : DespawnsBelow cfg rank r despawnPool) (kind : Kind) {pool : ℕ} (hrank : rank pool ≤ r)
    (hle : pool ≤ cfg.max_pool_id) {s : State} (hs : Counted cfg s.spawns) :
    ∃ s',despawnGroup cfg despawnPool kind pool s=some s' ∧ Counted cfg s'.spawns ∧
      (∀ kind' guid' pool',guid'∈members cfg kind' pool' →
        s'.spawns.IsActiveObject kind' guid' → s.spawns.IsActiveObject kind' guid') ∧
      ∀ kind' guid' pool',rank pool ≤ rank pool' → guid'∈members cfg kind' pool' →
        (s'.spawns.IsActiveObject kind' guid' ↔ s.spawns.IsActiveObject kind' guid' ∧
          ¬ (kind'=kind ∧ guid'∈members cfg kind pool)) := by
  rw [despawnGroup,if_neg (Nat.not_lt.mpr hle)]
  cases hempty : (cfg.groups kind pool).isEmpty with
  | true =>
    have hnil : members cfg kind pool=[] := by
      rw [PoolGroup.isEmpty,Bool.and_eq_true,List.isEmpty_iff,List.isEmpty_iff] at hempty
      rw [members,hempty.1,hempty.2]
      rfl
    refine ⟨s,if_pos rfl,hs,fun _ _ _ _ h => h,fun kind' guid' pool' _ _ => ?_⟩
    rw [hnil]
    simp only [List.not_mem_nil,and_false,not_false_iff,and_true]
  | false =>
    obtain ⟨s',h,hc,hf,ha⟩ := DespawnObject_spec hr hd kind hrank 0 hs
    refine ⟨s',h,hc,hf,fun kind' guid' pool' hp hm => ?_⟩
    rw [ha kind' guid' pool' hp hm]
    simp only [true_or,and_true]

/-- `DespawnPool` empties the pool, and touches nothing higher up. -/
theorem DespawnPool_spec (hr : Ranked cfg rank) (fuel : ℕ) :
    DespawnsBelow cfg rank fuel (DespawnPool cfg fuel) := by
  induction fuel with
  | zero => exact fun pool s _ h => absurd h (Nat.not_lt_zero _)
  | succ fuel ih =>
    intro pool s hle hlt hs
    have hrank : rank pool ≤ fuel := Nat.le_of_lt_succ hlt
    obtain ⟨s₁,h₁,hc₁,hf₁,ha₁⟩ := despawnGroup_spec hr ih Kind.Creature hrank hle hs
    obtain ⟨s₂,h₂,hc₂,hf₂,ha₂⟩ := despawnGroup_spec hr ih Kind.GameObject hrank hle hc₁
    obtain ⟨s₃,h₃,hc₃,hf₃,ha₃⟩ := despawnGroup_spec hr ih Kind.Pool hrank hle hc₂
    have hflags : ∀ kind guid pool',rank pool ≤ rank pool' → guid∈members cfg kind pool' →
        (s₃.spawns.IsActiveObject kind guid ↔
          s.spawns.IsActiveObject kind guid ∧ guid∉members cfg kind pool) := by
      intro kind guid pool' hp hm
      rw [ha₃ kind guid pool' hp hm,ha₂ kind guid pool' hp hm,ha₁ kind guid pool' hp hm]
      cases kind <;> simp
    refine ⟨s₃,?_,⟨hc₃,fun pool' hp kind guid hm => ?_,fun kind guid pool' hm ha => ?_⟩,?_⟩
    · rw [DespawnPool,h₁,Option.bind_eq_bind,Option.bind_some,h₂]
      exact h₃
    · rw [hflags kind guid pool' (Nat.le_of_succ_le hp) hm,and_iff_left_iff_imp]
      intro _ hm'
      rw [hr.unique hm hm'] at hp
      exact Nat.lt_irrefl _ hp
    · exact hf₁ kind guid pool' hm (hf₂ kind guid pool' hm (hf₃ kind guid pool' hm ha))
    · exact activeCount_eq_zero.mpr fun kind guid hm ha =>
        ((hflags kind guid pool le_rfl hm).mp ha).2 hm

theorem rollExplicit_spec {spawns : ActivePoolData} {kind : Kind} {triggerFrom : ℕ}
    {objs : List PoolObject} {roll : Float32} {obj : PoolObject}
    (h : rollExplicit spawns kind triggerFrom roll objs=some obj) :
    obj∈objs ∧ (obj.guid=triggerFrom ∨ ¬ spawns.IsActiveObject kind obj.guid) := by
  induction objs generalizing roll with
  | nil => cases h
  | cons o objs ih =>
    simp only [rollExplicit] at h
    split at h
    · rename_i hroll
      obtain rfl := Option.some.inj h
      exact ⟨List.mem_cons_self,hroll.2⟩
    · obtain ⟨hmem,hfree⟩ := ih h
      exact ⟨List.mem_cons_of_mem o hmem,hfree⟩

theorem RollOne_spec {kind : Kind} {pool triggerFrom : ℕ} {s s' : State} {obj : PoolObject}
    (h : RollOne (cfg.groups kind pool) kind triggerFrom s=(some obj,s')) :
    obj.guid∈members cfg kind pool ∧
      (obj.guid=triggerFrom ∨ ¬ s.spawns.IsActiveObject kind obj.guid) := by
  have hor := congrArg Prod.fst h
  rcases Option.or_eq_some_iff.mp hor with he|⟨-,he⟩
  · obtain ⟨hmem,hfree⟩ := rollExplicit_spec he
    exact ⟨List.mem_map_of_mem (List.mem_append_right _ hmem),hfree⟩
  · obtain ⟨hget,hfree⟩ := Option.filter_eq_some_iff.mp he
    exact ⟨List.mem_map_of_mem (List.mem_append_left _ (List.mem_of_getElem? hget)),
      of_decide_eq_true hfree⟩

theorem RollOne_spawns {group : PoolGroup} {kind : Kind} {triggerFrom : ℕ} {s s' : State}
    {obj : Option PoolObject} (h : RollOne group kind triggerFrom s=(obj,s')) :
    s'.spawns=s.spawns := by
  rw [← (Prod.mk.inj h).2]

theorem activate_spec (hr : Ranked cfg rank) {r : ℕ} {spawnPool : Callback}
    (hsp : SpawnsBelow cfg rank r spawnPool) {kind : Kind} {guid pool : ℕ} (hrank : rank pool ≤ r)
    (hmem : guid∈members cfg kind pool) {s : State} (hs : Counted cfg s.spawns)
    (hpresent : Present cfg s.spawns pool) (hnot : ¬ s.spawns.IsActiveObject kind guid) :
    ∃ s',objectCall spawnPool kind guid
        { s with spawns := s.spawns.ActivateObject kind guid pool }=some s' ∧
      Counted cfg s'.spawns ∧ Present cfg s'.spawns pool ∧
      activeCount cfg s'.spawns pool=activeCount cfg s.spawns pool+1 ∧
      (∀ pool',pool'≠pool → activeCount cfg s'.spawns pool' ≤
        max (activeCount cfg s.spawns pool') (cfg.MaxLimit pool')) ∧
      ∀ kind' guid' pool',rank pool ≤ rank pool' → guid'∈members cfg kind' pool' →
        (s'.spawns.IsActiveObject kind' guid' ↔
          s.spawns.IsActiveObject kind' guid' ∨ kind'=kind ∧ guid'=guid) := by
  have hact := hs.activate hr hmem hnot hpresent
  have hpresent₁ : Present cfg (s.spawns.ActivateObject kind guid pool) pool :=
    fun mother hm => (hact.active Kind.Pool pool mother hm).mpr (Or.inl (hpresent mother hm))
  have hcall : ∃ s',objectCall spawnPool kind guid
        { s with spawns := s.spawns.ActivateObject kind guid pool }=some s' ∧
      Spawned cfg rank (rank pool) (s.spawns.ActivateObject kind guid pool) s'.spawns := by
    cases kind with
    | Creature => exact ⟨_,rfl,Spawned.refl hact.counted⟩
    | GameObject => exact ⟨_,rfl,Spawned.refl hact.counted⟩
    | Pool =>
      have hlt := hr.below hmem
      have hsub : Present cfg (s.spawns.ActivateObject Kind.Pool guid pool) guid :=
        fun mother hm => (hact.active Kind.Pool guid mother hm).mpr (Or.inr ⟨rfl,rfl⟩)
      have hzero : activeCount cfg (s.spawns.ActivateObject Kind.Pool guid pool) guid=0 := by
        rw [hact.elsewhere guid (hr.ne hmem rfl),hs.empty hnot]
      obtain ⟨s',hcall,hspawned⟩ := hsp guid
        { s with spawns := s.spawns.ActivateObject Kind.Pool guid pool } (hr.sub_le hmem)
        (Nat.lt_of_lt_of_le hlt hrank) hact.counted hsub (by rw [hzero]; exact Nat.zero_le _)
      exact ⟨s',hcall,hspawned.mono hlt⟩
  obtain ⟨s',hcall,hspawned⟩ := hcall
  refine ⟨s',hcall,hspawned.counted,hspawned.above.present hr (Nat.le_succ _) hpresent₁,?_,?_,?_⟩
  · rw [hspawned.above.count le_rfl,hact.here]
  · intro pool' hne
    rw [← hact.elsewhere pool' hne]
    exact hspawned.tight pool'
  · intro kind' guid' pool' hp hm
    rw [hspawned.above pool' hp kind' guid' hm,hact.active kind' guid' pool' hm]

/-- The loop of `SpawnObject` keeps the count at the limit at most. It has room for
its iterations, and for one more while the triggering object is still to go. -/
theorem spawnLoop_spec (hr : Ranked cfg rank) {r : ℕ} {spawnPool despawnPool : Callback}
    (hsp : SpawnsBelow cfg rank r spawnPool) (hd : DespawnsBelow cfg rank r despawnPool)
    {kind : Kind} {pool : ℕ} (hrank : rank pool ≤ r) {i triggerFrom lastDespawned : ℕ} {s : State}
    (hs : Counted cfg s.spawns) (hpresent : Present cfg s.spawns pool)
    (htrigger : triggerFrom≠0 →
      triggerFrom∈members cfg kind pool ∧ s.spawns.IsActiveObject kind triggerFrom)
    (hroom : activeCount cfg s.spawns pool+i ≤
      cfg.MaxLimit pool+(if triggerFrom≠0 then 1 else 0))
    (hlimit : activeCount cfg s.spawns pool ≤ cfg.MaxLimit pool) :
    ∃ s',spawnLoop spawnPool despawnPool (cfg.groups kind pool) kind pool i triggerFrom
        lastDespawned s=some s' ∧
      Spawned cfg rank (rank pool+1) s.spawns s'.spawns ∧
      activeCount cfg s'.spawns pool ≤ cfg.MaxLimit pool := by
  induction i generalizing s triggerFrom lastDespawned with
  | zero => exact ⟨s,rfl,Spawned.refl hs,hlimit⟩
  | succ i ih =>
    rw [spawnLoop]
    split
    · -- nothing rolled
      rename_i s₁ hroll
      have heq := RollOne_spawns hroll
      rw [← heq] at hs hpresent htrigger hroom hlimit ⊢
      exact ih hs hpresent htrigger (by omega) hlimit
    · rename_i obj s₁ hroll
      obtain ⟨hmem,hfree⟩ := RollOne_spec hroll
      have heq := RollOne_spawns hroll
      rw [← heq] at hs hpresent htrigger hroom hlimit hfree ⊢
      split
      · exact ih hs hpresent htrigger (by omega) hlimit
      split
      · -- the triggering object respawns
        refine ih hs hpresent (fun h => absurd rfl h) ?_ hlimit
        rw [if_neg (not_not.mpr rfl)]
        split at hroom <;> omega
      · rename_i hne
        have hnot := hfree.resolve_left hne
        obtain ⟨s₂,hcall,hc₂,hp₂,hcount₂,htight₂,hflags₂⟩ :=
          activate_spec hr hsp hrank hmem hs hpresent hnot
        simp only [Option.bind_eq_bind,hcall,Option.bind_some]
        by_cases ht : triggerFrom≠0
        · -- one more is spawned, then the triggering object goes
          obtain ⟨htmem,htactive⟩ := htrigger ht
          obtain ⟨s₃,hdes,hc₃,hfewer₃,hflags₃⟩ :=
            DespawnObject_spec hr hd kind hrank triggerFrom hc₂
          have hcount₃ : activeCount cfg s₂.spawns pool=activeCount cfg s₃.spawns pool+1 := by
            refine activeCount_insert htmem
              (fun ha => ((hflags₃ _ _ pool le_rfl htmem).mp ha).2
                ⟨rfl,htmem,Or.inr rfl⟩) fun kind' guid' hm => ?_
            rw [hflags₃ kind' guid' pool le_rfl hm]
            have htactive₂ : s₂.spawns.IsActiveObject kind triggerFrom :=
              (hflags₂ kind triggerFrom pool le_rfl htmem).mpr (Or.inl htactive)
            constructor
            · intro ha
              by_cases hsame : kind'=kind ∧ guid'=triggerFrom
              · exact Or.inr hsame
              · exact Or.inl ⟨ha,fun hx => hsame ⟨hx.1,hx.2.2.resolve_left ht⟩⟩
            · rintro (ha|⟨rfl,rfl⟩)
              · exact ha.1
              · exact htactive₂
          have hp₃ : Present cfg s₃.spawns pool := fun mother hm => by
            refine (hflags₃ Kind.Pool pool mother (Nat.le_of_lt (hr.below hm)) hm).mpr
              ⟨hp₂ mother hm,?_⟩
            rintro ⟨rfl,hself,-⟩
            exact hr.ne hself rfl rfl
          rw [if_pos ht] at hroom
          have hstep : Spawned cfg rank (rank pool+1) s₁.spawns s₃.spawns := by
            refine ⟨hc₃,fun pool' hlt kind' guid' hm => ?_,fun pool' => ?_⟩
            · have hother : ¬ guid'∈members cfg kind' pool := fun hm' =>
                Nat.lt_irrefl _ ((hr.unique hm' hm) ▸ hlt)
              rw [hflags₃ kind' guid' pool' (Nat.le_of_succ_le hlt) hm,
                hflags₂ kind' guid' pool' (Nat.le_of_succ_le hlt) hm]
              grind
            · by_cases hp : pool'=pool
              · subst hp
                exact (show activeCount cfg s₃.spawns pool' ≤ _ by omega).trans (le_max_left _ _)
              · exact (activeCount_le fun kind' guid' hm => hfewer₃ kind' guid' pool' hm).trans
                  (htight₂ pool' hp)
          obtain ⟨s',hloop,hspawned,hfinal⟩ := @ih 0 triggerFrom s₃ hc₃ hp₃
            (fun h => absurd rfl h) (by rw [if_neg (not_not.mpr rfl)]; omega) (by omega)
          refine ⟨s',?_,hstep.trans hspawned,hfinal⟩
          rw [if_pos ht,hdes,Option.bind_some]
          exact hloop
        · rw [if_neg ht] at hroom
          have hstep : Spawned cfg rank (rank pool+1) s₁.spawns s₂.spawns := by
            refine ⟨hc₂,fun pool' hlt kind' guid' hm => ?_,fun pool' => ?_⟩
            · have hother : ¬ guid'∈members cfg kind' pool := fun hm' =>
                Nat.lt_irrefl _ ((hr.unique hm' hm) ▸ hlt)
              rw [hflags₂ kind' guid' pool' (Nat.le_of_succ_le hlt) hm]
              grind
            · by_cases hp : pool'=pool
              · subst hp
                exact (show activeCount cfg s₂.spawns pool' ≤ _ by omega).trans (le_max_right _ _)
              · exact htight₂ pool' hp
          obtain ⟨s',hloop,hspawned,hfinal⟩ := @ih triggerFrom lastDespawned s₂ hc₂ hp₂
            (fun h => absurd h ht) (by rw [if_neg ht]; omega) (by omega)
          refine ⟨s',?_,hstep.trans hspawned,hfinal⟩
          rw [if_neg ht]
          exact hloop

theorem SpawnPoolOf_spec (hr : Ranked cfg rank) {r : ℕ} {spawnPool despawnPool : Callback}
    (hsp : SpawnsBelow cfg rank r spawnPool) (hd : DespawnsBelow cfg rank r despawnPool)
    (kind : Kind) {pool : ℕ} (hrank : rank pool ≤ r) (hle : pool ≤ cfg.max_pool_id) (guid : ℕ)
    {s : State} (hs : Counted cfg s.spawns) (hpresent : Present cfg s.spawns pool)
    (htrigger : guid≠0 → guid∈members cfg kind pool ∧ s.spawns.IsActiveObject kind guid)
    (hlimit : activeCount cfg s.spawns pool ≤ cfg.MaxLimit pool) :
    ∃ s',SpawnPoolOf cfg spawnPool despawnPool kind pool guid s=some s' ∧
      Spawned cfg rank (rank pool+1) s.spawns s'.spawns ∧
      activeCount cfg s'.spawns pool ≤ cfg.MaxLimit pool := by
  rw [SpawnPoolOf,if_neg (Nat.not_lt.mpr hle)]
  split
  · exact ⟨s,rfl,Spawned.refl hs,hlimit⟩
  refine spawnLoop_spec hr hsp hd hrank hs hpresent htrigger ?_ hlimit
  have hbmod : ((cfg.MaxLimit pool : ℤ)-activeCount cfg s.spawns pool).bmod (2^32) ≤
      (cfg.MaxLimit pool : ℤ)-activeCount cfg s.spawns pool := by
    rw [Int.bmod_def]
    split <;> omega
  rw [hs pool]
  split <;> omega

/-- `SpawnPool` fills the pool up to its limit at most, and touches nothing higher up. -/
theorem SpawnPool_spec (hr : Ranked cfg rank) (fuel : ℕ) :
    SpawnsBelow cfg rank fuel (SpawnPool cfg fuel) := by
  induction fuel with
  | zero => exact fun pool s _ h => absurd h (Nat.not_lt_zero _)
  | succ fuel ih =>
    intro pool s hle hlt hs hpresent hlimit
    have hrank : rank pool ≤ fuel := Nat.le_of_lt_succ hlt
    have hd := DespawnPool_spec hr fuel
    obtain ⟨s₁,h₁,hsp₁,hl₁⟩ := SpawnPoolOf_spec hr ih hd Kind.Pool hrank hle 0 hs hpresent
      (fun h => absurd rfl h) hlimit
    have hp₁ := hsp₁.above.present hr le_rfl hpresent
    obtain ⟨s₂,h₂,hsp₂,hl₂⟩ := SpawnPoolOf_spec hr ih hd Kind.GameObject hrank hle 0
      hsp₁.counted hp₁ (fun h => absurd rfl h) hl₁
    have hp₂ := hsp₂.above.present hr le_rfl hp₁
    obtain ⟨s₃,h₃,hsp₃,-⟩ := SpawnPoolOf_spec hr ih hd Kind.Creature hrank hle 0
      hsp₂.counted hp₂ (fun h => absurd rfl h) hl₂
    refine ⟨s₃,?_,(hsp₁.trans hsp₂).trans hsp₃⟩
    rw [SpawnPool,h₁,Option.bind_eq_bind,Option.bind_some,h₂]
    exact h₃

/-- A configuration as it is loaded: every object belongs to one pool at most,
no pool is, over others, a part of itself, and indices are in range. -/
structure WellFormed (cfg : PoolConfig) : Prop where
  /-- Every creature, gameobject and sub-pool belongs to at most one pool. -/
  unique : ∀ kind guid pool pool',guid∈members cfg kind pool → guid∈members cfg kind pool' →
    pool=pool'
  acyclic : ∀ pool,¬ Relation.TransGen (fun sub mother => sub∈members cfg Kind.Pool mother) pool pool
  pool_le : ∀ kind guid pool,guid∈members cfg kind pool → pool ≤ cfg.max_pool_id
  sub_le : ∀ pool sub,sub∈members cfg Kind.Pool pool → sub ≤ cfg.max_pool_id
  /-- `mPoolSearchMap` names the pool of a sub-pool. -/
  search : ∀ sub mother,
    cfg.mPoolSearchMap sub=some mother ↔ sub∈members cfg Kind.Pool mother

/-- The number of pools below a pool is a rank, within the fuel of the operations. -/
theorem WellFormed.ranked (h : WellFormed cfg) :
    ∃ rank : ℕ → ℕ,Ranked cfg rank ∧ ∀ pool,rank pool < cfg.max_pool_id+2 := by
  classical
  let below : ℕ → Finset ℕ := fun pool =>
    (Finset.range (cfg.max_pool_id+1)).filter fun sub =>
      Relation.TransGen (fun sub mother => sub∈members cfg Kind.Pool mother) sub pool
  refine ⟨fun pool => (below pool).card,⟨fun {kind guid pool pool'} => h.unique kind guid pool pool',
    fun {pool sub} hsub => ?_,fun {kind guid pool} => h.pool_le kind guid pool,
    fun {pool sub} => h.sub_le pool sub⟩,fun pool => ?_⟩
  · refine Finset.card_lt_card (Finset.ssubset_iff_of_subset ?_ |>.mpr ⟨sub,?_,?_⟩)
    · intro x hx
      obtain ⟨hrange,htrans⟩ := Finset.mem_filter.mp hx
      exact Finset.mem_filter.mpr ⟨hrange,htrans.tail hsub⟩
    · exact Finset.mem_filter.mpr ⟨Finset.mem_range.mpr (Nat.lt_succ_of_le (h.sub_le pool sub hsub)),
        Relation.TransGen.single hsub⟩
    · exact fun hx => h.acyclic sub (Finset.mem_filter.mp hx).2
  · have hcard := Finset.card_filter_le (Finset.range (cfg.max_pool_id+1)) fun sub =>
      Relation.TransGen (fun sub mother => sub∈members cfg Kind.Pool mother) sub pool
    rw [Finset.card_range] at hcard
    exact Nat.lt_succ_of_le hcard

/-- Calls are for root pools, and updates for a spawned member of a pool. -/
def Legal (cfg : PoolConfig) (s : State) : Operation → Prop
  | Operation.SpawnPool pool => pool ≤ cfg.max_pool_id ∧ ∀ mother,pool∉members cfg Kind.Pool mother
  | Operation.DespawnPool pool =>
    pool ≤ cfg.max_pool_id ∧ ∀ mother,pool∉members cfg Kind.Pool mother
  | Operation.UpdatePool kind pool guid =>
    guid∈members cfg kind pool ∧ s.spawns.IsActiveObject kind guid

/-- The counters are right and no pool is over its limit. -/
def WithinLimits (cfg : PoolConfig) (s : State) : Prop :=
  Counted cfg s.spawns ∧ ∀ pool,activeCount cfg s.spawns pool ≤ cfg.MaxLimit pool

theorem Spawned.withinLimits {n : ℕ} {s s' : State} (h : Spawned cfg rank n s.spawns s'.spawns)
    (hs : WithinLimits cfg s) : WithinLimits cfg s' :=
  ⟨h.counted,fun pool => (h.tight pool).trans (max_le (hs.2 pool) le_rfl)⟩

/-- Every legal call returns, with the counters right and no pool over its limit. -/
theorem perform_spec (h : WellFormed cfg) {s : State} (hs : WithinLimits cfg s) {op : Operation}
    (hop : Legal cfg s op) : ∃ s',perform cfg s op=some s' ∧ WithinLimits cfg s' := by
  obtain ⟨rank,hr,hfuel⟩ := h.ranked
  have hd := DespawnPool_spec hr (cfg.max_pool_id+2)
  have hsp := SpawnPool_spec hr (cfg.max_pool_id+2)
  -- a trigger that is an active member gives a present pool
  have hupdate : ∀ {kind : Kind} {pool guid : ℕ},guid∈members cfg kind pool →
      s.spawns.IsActiveObject kind guid →
      ∃ s',SpawnPoolOf cfg (SpawnPool cfg (cfg.max_pool_id+2)) (DespawnPool cfg (cfg.max_pool_id+2))
        kind pool guid s=some s' ∧ WithinLimits cfg s' := fun {kind pool guid} hmem hactive => by
    obtain ⟨s',h',hspawned,-⟩ := SpawnPoolOf_spec hr hsp hd kind (Nat.le_of_lt (hfuel pool))
      (hr.pool_le hmem) guid hs.1 (fun _ _ => hs.1.active hmem hactive)
      (fun _ => ⟨hmem,hactive⟩) (hs.2 pool)
    exact ⟨s',h',hspawned.withinLimits hs⟩
  cases op with
  | SpawnPool pool =>
    obtain ⟨s',h',hspawned⟩ := hsp pool s hop.1 (hfuel pool) hs.1
      (fun mother hm => absurd hm (hop.2 mother)) (hs.2 pool)
    exact ⟨s',h',hspawned.withinLimits hs⟩
  | DespawnPool pool =>
    obtain ⟨s',h',hdespawned,-⟩ := hd pool s hop.1 (hfuel pool) hs.1
    exact ⟨s',h',hdespawned.spawned.withinLimits hs⟩
  | UpdatePool kind pool guid =>
    obtain ⟨hmem,hactive⟩ := hop
    simp only [perform,UpdatePool]
    split
    · rename_i hmother
      obtain ⟨mother,hsearch⟩ : ∃ mother,cfg.mPoolSearchMap pool=some mother := by
        cases hsearch : cfg.mPoolSearchMap pool with
        | none => rw [hsearch] at hmother; exact absurd rfl hmother
        | some mother => exact ⟨mother,rfl⟩
      rw [hsearch]
      exact hupdate ((h.search pool mother).mp hsearch) (hs.1.active hmem hactive)
    · exact hupdate hmem hactive

/-- The claims about one state: counters, limits, and nothing active inside a
sub-pool that is not. -/
structure Accounted (cfg : PoolConfig) (s : State) : Prop where
  /-- The counter of a pool that is spawned or a root is the number of its active members. -/
  count : ∀ pool,Present cfg s.spawns pool →
    s.spawns.GetActiveObjectCount pool=activeCount cfg s.spawns pool
  /-- That number is within the limit. -/
  limit : ∀ pool,Present cfg s.spawns pool → activeCount cfg s.spawns pool ≤ cfg.MaxLimit pool
  nested : ∀ kind guid pool,guid∈members cfg kind pool → s.spawns.IsActiveObject kind guid →
    Present cfg s.spawns pool

/-- The next state of a run; a call that did not return ends it. -/
def next (cfg : PoolConfig) (s : Option State) (op : Operation) : Option State :=
  s.bind fun s => perform cfg s op

/-- The call is legal where it is made. -/
def LegalAt (cfg : PoolConfig) (s : Option State) (op : Operation) : Prop := ∀ t∈s,Legal cfg t op

/-- In every run of legal calls, with any random numbers, every call returns
and the accounting is right after it. -/
theorem pool_accounting (h : WellFormed cfg) (rolls : List Roll) {ops : List Operation}
    (hops : Meets (next cfg) (LegalAt cfg) (some (State.empty rolls)) ops) :
    ∃ s,run (next cfg) (some (State.empty rolls)) ops=some s ∧ Accounted cfg s := by
  have hempty : WithinLimits cfg (State.empty rolls) := by
    have hzero : ∀ pool,activeCount cfg (State.empty rolls).spawns pool=0 := fun pool =>
      activeCount_eq_zero.mpr fun kind guid _ ha => by
        cases kind <;> exact absurd ha (by simp [State.empty,ActivePoolData.IsActiveObject])
    exact ⟨fun pool => (hzero pool).symm,fun pool => by rw [hzero]; exact Nat.zero_le _⟩
  have hstep : ∀ (o : Option State) (op : Operation),(∃ s,o=some s ∧ WithinLimits cfg s) →
      LegalAt cfg o op → ∃ s,next cfg o op=some s ∧ WithinLimits cfg s := by
    rintro _ op ⟨s,rfl,hs⟩ hlegal
    exact perform_spec h hs (hlegal s rfl)
  obtain ⟨s,hrun,hcounted,hlimit⟩ := run_invariant hstep ⟨_,rfl,hempty⟩ hops
  exact ⟨s,hrun,fun pool _ => hcounted pool,fun pool _ => hlimit pool,
    fun kind guid pool hmem hactive _ _ => hcounted.active hmem hactive⟩

/-- Objects of equal chance. -/
def equalChanced (guids : List ℕ) : PoolGroup := ⟨[],guids.map fun guid => ⟨guid,0⟩⟩

/-- Pool 1 over the pools 2, of two creatures, and 3, of a gameobject; one at a time each. -/
def alternating : PoolConfig where
  max_pool_id := 3
  MaxLimit := fun _ => 1
  groups := fun kind pool =>
    match kind,pool with
    | Kind.Pool,1 => equalChanced [2,3]
    | Kind.Creature,2 => equalChanced [10,11]
    | Kind.GameObject,3 => equalChanced [20]
    | _,_ => equalChanced []
  mPoolSearchMap := fun pool => if pool=2 ∨ pool=3 then some 1 else none

theorem mem_alternating {kind : Kind} {guid pool : ℕ} (h : guid∈members alternating kind pool) :
    kind=Kind.Pool ∧ pool=1 ∧ (guid=2 ∨ guid=3) ∨
      kind=Kind.Creature ∧ pool=2 ∧ (guid=10 ∨ guid=11) ∨
        kind=Kind.GameObject ∧ pool=3 ∧ guid=20 := by
  simp only [members,alternating] at h
  split at h <;> simp [equalChanced] at h <;> simp [h]

theorem wellFormed_alternating : WellFormed alternating where
  unique := fun kind guid pool pool' h h' => by
    have := mem_alternating h
    have := mem_alternating h'
    grind
  acyclic := fun pool h => by
    have hup : ∀ {sub mother},
        Relation.TransGen (fun sub mother => sub∈members alternating Kind.Pool mother) sub mother →
          mother=1 ∧ sub≠1 := fun {sub mother} h => by
      induction h with
      | single hmem => have := mem_alternating hmem; grind
      | tail _ hmem ih => have := mem_alternating hmem; grind
    exact (hup h).2 (hup h).1
  pool_le := fun kind guid pool h => by
    have := mem_alternating h
    simp only [alternating]
    omega
  sub_le := fun pool sub h => by
    have := mem_alternating h
    simp only [alternating]
    grind
  search := fun sub mother => by
    constructor
    · intro h
      simp only [alternating] at h
      split at h
      · rename_i hsub
        obtain rfl := Option.some.inj h
        rcases hsub with rfl|rfl <;> decide
      · cases h
    · intro h
      have := mem_alternating h
      simp only [alternating]
      grind

/-- Pool 2 is spawned with creature 10, and gives way to pool 3 when the creature is updated. -/
theorem pool_accounting_alternating :
    (∃ s,run (next alternating) (some (State.empty [⟨0,0⟩,⟨0,0⟩,⟨0,1⟩]))
        [Operation.SpawnPool 1,Operation.UpdatePool Kind.Creature 2 10]=some s ∧
      Accounted alternating s) ∧
    (run (next alternating) (some (State.empty [⟨0,0⟩,⟨0,0⟩,⟨0,1⟩]))
        [Operation.SpawnPool 1,Operation.UpdatePool Kind.Creature 2 10]).map
      (fun s => (s.spawns.IsActiveObject Kind.Creature 10,s.spawns.IsActiveObject Kind.GameObject 20))=
        some (false,true) := by
  refine ⟨pool_accounting wellFormed_alternating [⟨0,0⟩,⟨0,0⟩,⟨0,1⟩] ⟨?_,?_,trivial⟩,by rfl⟩
  · rintro s -
    refine ⟨by decide,fun mother hm => ?_⟩
    have := mem_alternating hm
    grind
  · intro s hs
    refine ⟨by decide,?_⟩
    have hflag : (next alternating (some (State.empty [⟨0,0⟩,⟨0,0⟩,⟨0,1⟩]))
        (Operation.SpawnPool 1)).map (fun s => s.spawns.IsActiveObject Kind.Creature 10)=
          some true := by rfl
    rw [Option.mem_def.mp hs] at hflag
    exact Option.some.inj hflag

end Projectnelth.PoolAccounting
