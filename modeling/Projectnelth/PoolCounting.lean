import Mathlib
import Projectnelth.PoolModel

/-!
# Counting what is spawned of a pool

The one invariant is that for every pool, spawned or not, the counter in
`mSpawnedPools` is the number of its active members. It covers the nesting: a
sub-pool that is not spawned has no entry, so its count is 0 and nothing in it
is active. `ActivateObject` and `RemoveObject` keep it where they are called
for a member whose pool is there, and for a sub-pool that is empty.
-/

namespace Projectnelth.PoolCounting

open PoolModel

/-- The members of one kind of a pool. -/
def members (cfg : PoolConfig) (kind : Kind) (pool : ℕ) : List ℕ :=
  ((cfg.groups kind pool).EqualChanced++ (cfg.groups kind pool).ExplicitlyChanced).map
    PoolObject.guid

/-- The active members of one kind of a pool. -/
def activeMembers (cfg : PoolConfig) (spawns : ActivePoolData) (kind : Kind) (pool : ℕ) :
    Finset ℕ :=
  (members cfg kind pool).toFinset.filter fun guid => spawns.IsActiveObject kind guid

/-- The number of active creatures, gameobjects and sub-pools that are members of a pool. -/
def activeCount (cfg : PoolConfig) (spawns : ActivePoolData) (pool : ℕ) : ℕ :=
  (activeMembers cfg spawns Kind.Creature pool).card+
    (activeMembers cfg spawns Kind.GameObject pool).card+
      (activeMembers cfg spawns Kind.Pool pool).card

/-- Every counter is the number of active members. -/
def Counted (cfg : PoolConfig) (spawns : ActivePoolData) : Prop :=
  ∀ pool,spawns.GetActiveObjectCount pool=activeCount cfg spawns pool

/-- A configuration in which every object belongs to one pool at most and
sub-pools lie below their pools, by a rank that shows it. -/
structure Ranked (cfg : PoolConfig) (rank : ℕ → ℕ) : Prop where
  /-- Objects belong to one pool at most. -/
  unique : ∀ {kind guid pool pool'},guid∈members cfg kind pool → guid∈members cfg kind pool' →
    pool=pool'
  below : ∀ {pool sub},sub∈members cfg Kind.Pool pool → rank sub < rank pool
  pool_le : ∀ {kind guid pool},guid∈members cfg kind pool → pool ≤ cfg.max_pool_id
  sub_le : ∀ {pool sub},sub∈members cfg Kind.Pool pool → sub ≤ cfg.max_pool_id

/-- A pool that can get members: spawned, or no sub-pool. -/
def Present (cfg : PoolConfig) (spawns : ActivePoolData) (pool : ℕ) : Prop :=
  ∀ mother,pool∈members cfg Kind.Pool mother → spawns.IsActiveObject Kind.Pool pool

theorem mem_activeMembers {cfg : PoolConfig} {spawns : ActivePoolData} {kind : Kind}
    {guid pool : ℕ} : guid∈activeMembers cfg spawns kind pool ↔
      guid∈members cfg kind pool ∧ spawns.IsActiveObject kind guid := by
  rw [activeMembers,Finset.mem_filter,List.mem_toFinset]

theorem activeCount_congr {cfg : PoolConfig} {spawns spawns' : ActivePoolData} {pool : ℕ}
    (h : ∀ kind guid,guid∈members cfg kind pool →
      spawns'.IsActiveObject kind guid=spawns.IsActiveObject kind guid) :
    activeCount cfg spawns' pool=activeCount cfg spawns pool := by
  have hkind : ∀ kind,activeMembers cfg spawns' kind pool=activeMembers cfg spawns kind pool := by
    intro kind
    ext guid
    rw [mem_activeMembers,mem_activeMembers]
    exact and_congr_right fun hmem => by rw [h kind guid hmem]
  rw [activeCount,activeCount,hkind,hkind,hkind]

/-- What is active less often is counted less. -/
theorem activeCount_le {cfg : PoolConfig} {spawns spawns' : ActivePoolData} {pool : ℕ}
    (h : ∀ kind guid,guid∈members cfg kind pool →
      spawns'.IsActiveObject kind guid → spawns.IsActiveObject kind guid) :
    activeCount cfg spawns' pool ≤ activeCount cfg spawns pool := by
  have hkind : ∀ kind,
      (activeMembers cfg spawns' kind pool).card ≤ (activeMembers cfg spawns kind pool).card := by
    refine fun kind => Finset.card_le_card fun guid hguid => ?_
    obtain ⟨hmem,hactive⟩ := mem_activeMembers.mp hguid
    exact mem_activeMembers.mpr ⟨hmem,h kind guid hmem hactive⟩
  exact Nat.add_le_add (Nat.add_le_add (hkind _) (hkind _)) (hkind _)

theorem activeCount_eq_zero {cfg : PoolConfig} {spawns : ActivePoolData} {pool : ℕ} :
    activeCount cfg spawns pool=0 ↔
      ∀ kind guid,guid∈members cfg kind pool → ¬ spawns.IsActiveObject kind guid := by
  have hkind : ∀ kind,(activeMembers cfg spawns kind pool).card=0 ↔
      ∀ guid,guid∈members cfg kind pool → ¬ spawns.IsActiveObject kind guid := by
    intro kind
    rw [Finset.card_eq_zero,Finset.eq_empty_iff_forall_notMem]
    simp only [mem_activeMembers,not_and]
  rw [activeCount,Nat.add_eq_zero_iff,Nat.add_eq_zero_iff,hkind,hkind,hkind]
  constructor
  · rintro ⟨⟨hc,hg⟩,hp⟩ (_|_|_)
    · exact hc
    · exact hg
    · exact hp
  · exact fun h => ⟨⟨h _,h _⟩,h _⟩

theorem activeCount_insert {cfg : PoolConfig} {spawns spawns' : ActivePoolData} {kind : Kind}
    {guid pool : ℕ} (hmem : guid∈members cfg kind pool)
    (hnot : ¬ spawns.IsActiveObject kind guid)
    (h : ∀ kind' guid',guid'∈members cfg kind' pool →
      (spawns'.IsActiveObject kind' guid' ↔
        spawns.IsActiveObject kind' guid' ∨ kind'=kind ∧ guid'=guid)) :
    activeCount cfg spawns' pool=activeCount cfg spawns pool+1 := by
  have hsame : ∀ kind',kind'≠kind →
      activeMembers cfg spawns' kind' pool=activeMembers cfg spawns kind' pool := by
    intro kind' hne
    ext guid'
    rw [mem_activeMembers,mem_activeMembers]
    exact and_congr_right fun hm => by rw [h kind' guid' hm]; simp [hne]
  have hone : (activeMembers cfg spawns' kind pool).card=
      (activeMembers cfg spawns kind pool).card+1 := by
    rw [← Finset.card_insert_of_notMem (a := guid)
      fun hin => hnot (mem_activeMembers.mp hin).2]
    congr 1
    ext guid'
    rw [Finset.mem_insert,mem_activeMembers,mem_activeMembers]
    constructor
    · rintro ⟨hm,ha⟩
      rcases (h kind guid' hm).mp ha with ha|⟨-,rfl⟩
      · exact Or.inr ⟨hm,ha⟩
      · exact Or.inl rfl
    · rintro (rfl|⟨hm,ha⟩)
      · exact ⟨hmem,(h kind _ hmem).mpr (Or.inr ⟨rfl,rfl⟩)⟩
      · exact ⟨hm,(h kind guid' hm).mpr (Or.inl ha)⟩
  rw [activeCount,activeCount]
  cases kind with
  | Creature => rw [hone,hsame _ (by decide),hsame _ (by decide)]; omega
  | GameObject => rw [hone,hsame _ (by decide),hsame _ (by decide)]; omega
  | Pool => rw [hone,hsame _ (by decide),hsame _ (by decide)]; omega

theorem activeCount_pos {cfg : PoolConfig} {spawns : ActivePoolData} {kind : Kind}
    {guid pool : ℕ} (hmem : guid∈members cfg kind pool) (h : spawns.IsActiveObject kind guid) :
    0 < activeCount cfg spawns pool :=
  Nat.pos_of_ne_zero fun hzero => activeCount_eq_zero.mp hzero kind guid hmem h

theorem isActive_ActivateObject (spawns : ActivePoolData) (kind kind' : Kind)
    (guid guid' pool : ℕ) :
    (spawns.ActivateObject kind guid pool).IsActiveObject kind' guid' ↔
      spawns.IsActiveObject kind' guid' ∨ kind'=kind ∧ guid'=guid ∨
        kind'=Kind.Pool ∧ guid'=pool := by
  cases kind <;> cases kind' <;>
    simp only [ActivePoolData.ActivateObject,ActivePoolData.increment,
      ActivePoolData.IsActiveObject,Finset.mem_insert,decide_eq_true_eq,Function.update_apply] <;>
    grind

theorem isActive_RemoveObject (spawns : ActivePoolData) (kind kind' : Kind)
    (guid guid' pool : ℕ) :
    (spawns.RemoveObject kind guid pool).IsActiveObject kind' guid' ↔
      spawns.IsActiveObject kind' guid' ∧ ¬ (kind'=kind ∧ guid'=guid) ∨
        kind'=Kind.Pool ∧ guid'=pool := by
  cases kind <;> cases kind' <;>
    simp only [ActivePoolData.RemoveObject,ActivePoolData.decrement,
      ActivePoolData.IsActiveObject,Finset.mem_erase,decide_eq_true_eq,Function.update_apply] <;>
    grind

theorem count_ActivateObject (spawns : ActivePoolData) {kind : Kind} {guid pool : ℕ}
    (hne : kind=Kind.Pool → guid≠pool) (pool' : ℕ) :
    (spawns.ActivateObject kind guid pool).GetActiveObjectCount pool'=
      if pool'=pool then spawns.GetActiveObjectCount pool+1
      else if kind=Kind.Pool ∧ pool'=guid then 0 else spawns.GetActiveObjectCount pool' := by
  cases kind <;>
    simp only [ActivePoolData.ActivateObject,ActivePoolData.increment,
      ActivePoolData.GetActiveObjectCount,Function.update_apply] <;>
    grind

theorem count_RemoveObject (spawns : ActivePoolData) {kind : Kind} {guid pool : ℕ}
    (hne : kind=Kind.Pool → guid≠pool) (pool' : ℕ) :
    (spawns.RemoveObject kind guid pool).GetActiveObjectCount pool'=
      if pool'=pool then spawns.GetActiveObjectCount pool-1
      else if kind=Kind.Pool ∧ pool'=guid then 0 else spawns.GetActiveObjectCount pool' := by
  cases kind <;>
    simp only [ActivePoolData.RemoveObject,ActivePoolData.decrement,
      ActivePoolData.GetActiveObjectCount,Function.update_apply] <;>
    grind

theorem Counted.empty {cfg : PoolConfig} {spawns : ActivePoolData} (h : Counted cfg spawns)
    {pool : ℕ} (hnot : ¬ spawns.IsActiveObject Kind.Pool pool) : activeCount cfg spawns pool=0 := by
  rw [← h pool,ActivePoolData.GetActiveObjectCount]
  rw [ActivePoolData.IsActiveObject,Bool.not_eq_true,Option.isSome_eq_false_iff,
    Option.isNone_iff_eq_none] at hnot
  rw [hnot]
  rfl

theorem Counted.active {cfg : PoolConfig} {spawns : ActivePoolData} (h : Counted cfg spawns)
    {kind : Kind} {guid pool : ℕ} (hmem : guid∈members cfg kind pool)
    (hactive : spawns.IsActiveObject kind guid) : spawns.IsActiveObject Kind.Pool pool := by
  by_contra hnot
  exact Nat.ne_of_gt (activeCount_pos hmem hactive) (h.empty hnot)

theorem Ranked.ne {cfg : PoolConfig} {rank : ℕ → ℕ} (h : Ranked cfg rank) {kind : Kind}
    {guid pool : ℕ} (hmem : guid∈members cfg kind pool) : kind=Kind.Pool → guid≠pool := by
  rintro rfl rfl
  exact Nat.lt_irrefl _ (h.below hmem)

/-- What activating a member changes. -/
structure Activated (cfg : PoolConfig) (kind : Kind) (guid pool : ℕ)
    (spawns spawns' : ActivePoolData) : Prop where
  /-- The counters are right again. -/
  counted : Counted cfg spawns'
  /-- Exactly the object has become active. -/
  active : ∀ kind' guid' pool',guid'∈members cfg kind' pool' →
    (spawns'.IsActiveObject kind' guid' ↔
      spawns.IsActiveObject kind' guid' ∨ kind'=kind ∧ guid'=guid)
  here : activeCount cfg spawns' pool=activeCount cfg spawns pool+1
  elsewhere : ∀ pool',pool'≠pool → activeCount cfg spawns' pool'=activeCount cfg spawns pool'

theorem Counted.activate {cfg : PoolConfig} {rank : ℕ → ℕ} (hr : Ranked cfg rank)
    {spawns : ActivePoolData} (h : Counted cfg spawns) {kind : Kind} {guid pool : ℕ}
    (hmem : guid∈members cfg kind pool) (hnot : ¬ spawns.IsActiveObject kind guid)
    (hpresent : Present cfg spawns pool) :
    Activated cfg kind guid pool spawns (spawns.ActivateObject kind guid pool) := by
  have hactive : ∀ kind' guid' pool',guid'∈members cfg kind' pool' →
      ((spawns.ActivateObject kind guid pool).IsActiveObject kind' guid' ↔
        spawns.IsActiveObject kind' guid' ∨ kind'=kind ∧ guid'=guid) := by
    intro kind' guid' pool' hmem'
    rw [isActive_ActivateObject,← or_assoc,or_iff_left_iff_imp]
    rintro ⟨rfl,rfl⟩
    exact Or.inl (hpresent pool' hmem')
  have hhere := activeCount_insert hmem hnot fun kind' guid' hm => hactive kind' guid' pool hm
  have helse : ∀ pool',pool'≠pool →
      activeCount cfg (spawns.ActivateObject kind guid pool) pool'=activeCount cfg spawns pool' := by
    intro pool' hne
    refine activeCount_congr fun kind' guid' hmem' => Bool.eq_iff_iff.mpr ?_
    rw [hactive kind' guid' pool' hmem',or_iff_left_iff_imp]
    rintro ⟨rfl,rfl⟩
    exact absurd (hr.unique hmem' hmem) hne
  refine ⟨fun pool' => ?_,hactive,hhere,helse⟩
  rw [count_ActivateObject spawns (hr.ne hmem)]
  by_cases hp : pool'=pool
  · rw [if_pos hp,h pool,hp,hhere]
  rw [if_neg hp,helse pool' hp]
  split
  · rename_i hsub
    obtain ⟨rfl,rfl⟩ := hsub
    exact (h.empty hnot).symm
  · exact h pool'

/-- What removing a member changes. -/
structure Removed (cfg : PoolConfig) (kind : Kind) (guid pool : ℕ)
    (spawns spawns' : ActivePoolData) : Prop where
  /-- The counters are right again. -/
  counted : Counted cfg spawns'
  /-- Exactly the object has become inactive. -/
  active : ∀ kind' guid' pool',guid'∈members cfg kind' pool' →
    (spawns'.IsActiveObject kind' guid' ↔
      spawns.IsActiveObject kind' guid' ∧ ¬ (kind'=kind ∧ guid'=guid))

theorem Counted.remove {cfg : PoolConfig} {rank : ℕ → ℕ} (hr : Ranked cfg rank)
    {spawns : ActivePoolData} (h : Counted cfg spawns) {kind : Kind} {guid pool : ℕ}
    (hmem : guid∈members cfg kind pool) (hactive : spawns.IsActiveObject kind guid)
    (hempty : kind=Kind.Pool → activeCount cfg spawns guid=0) :
    Removed cfg kind guid pool spawns (spawns.RemoveObject kind guid pool) := by
  have hflag : ∀ kind' guid' pool',guid'∈members cfg kind' pool' →
      ((spawns.RemoveObject kind guid pool).IsActiveObject kind' guid' ↔
        spawns.IsActiveObject kind' guid' ∧ ¬ (kind'=kind ∧ guid'=guid)) := by
    intro kind' guid' pool' hmem'
    rw [isActive_RemoveObject,or_iff_left_iff_imp]
    rintro ⟨rfl,rfl⟩
    exact ⟨h.active hmem hactive,fun ⟨hk,hg⟩ => hr.ne hmem hk.symm hg.symm⟩
  have hhere : activeCount cfg spawns pool=
      activeCount cfg (spawns.RemoveObject kind guid pool) pool+1 := by
    refine activeCount_insert hmem (fun ha => ((hflag _ _ pool hmem).mp ha).2 ⟨rfl,rfl⟩) ?_
    intro kind' guid' hmem'
    rw [hflag kind' guid' pool hmem']
    constructor
    · intro ha
      by_cases hsame : kind'=kind ∧ guid'=guid
      · exact Or.inr hsame
      · exact Or.inl ⟨ha,hsame⟩
    · rintro (ha|⟨rfl,rfl⟩)
      · exact ha.1
      · exact hactive
  have helse : ∀ pool',pool'≠pool →
      activeCount cfg (spawns.RemoveObject kind guid pool) pool'=activeCount cfg spawns pool' := by
    intro pool' hne
    refine activeCount_congr fun kind' guid' hmem' => Bool.eq_iff_iff.mpr ?_
    rw [hflag kind' guid' pool' hmem',and_iff_left_iff_imp]
    rintro - ⟨rfl,rfl⟩
    exact hne (hr.unique hmem' hmem)
  refine ⟨fun pool' => ?_,hflag⟩
  rw [count_RemoveObject spawns (hr.ne hmem)]
  by_cases hp : pool'=pool
  · rw [if_pos hp,h pool,hp,hhere,Nat.add_sub_cancel]
  rw [if_neg hp,helse pool' hp]
  split
  · rename_i hsub
    obtain ⟨rfl,rfl⟩ := hsub
    exact (hempty rfl).symm
  · exact h pool'

end Projectnelth.PoolCounting
