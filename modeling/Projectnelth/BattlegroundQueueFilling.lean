import Mathlib
import Projectnelth.BattlegroundQueuePools
import Projectnelth.BattlegroundQueueRepresentation
import Projectnelth.WhileLoop

/-!
# The balanced fill of a battleground

`FillPlayersToBG` fills both teams from their queues and then kicks groups from the
team with fewer free places, refilling it from where its iterator stands. A kick
takes a group away, and an added group is one that the iterator has passed for good, so the
balancing loop ends.
-/

namespace Projectnelth.BattlegroundQueueModel

open Team BattlegroundQueueGroupTypes BattlegroundQueue WhileLoop

/-- One team's pool and iterator: the pool is right, and its groups lie before the iterator. -/
structure TeamRight (q : BattlegroundQueue) (queue : List Ptr) (free : ℕ) (itr : List Ptr)
    (pool : SelectionPool) : Prop extends Filled q.size q.invited free pool where
  passed : ∃ passed,passed++itr=queue ∧ pool.SelectedGroups⊆passed

/-- The groups of the pool, and twice those that may still be added. -/
def weight (itr : List Ptr) (pool : SelectionPool) : ℕ :=
  pool.SelectedGroups.length+2*itr.length

/-- `fillFrom` on the team's own pool. -/
def fillPool (q : BattlegroundQueue) (desired : ℕ) :
    List Ptr → SelectionPool → SelectionPool×List Ptr
  | [],pool => (pool,[])
  | ginfo::rest,pool =>
    match pool.AddGroup q ginfo desired with
    | (pool,true) => fillPool q desired rest pool
    | (pool,false) => (pool,ginfo::rest)

section

variable {q : BattlegroundQueue} {queue itr : List Ptr} {free desired : ℕ} {pool : SelectionPool}

theorem fillFrom_eq (q : BattlegroundQueue) (team : Team) (desired : ℕ) (itr : List Ptr)
    (pools : Pools) :
    fillFrom q team desired itr pools=
      (Function.update pools team (fillPool q desired itr (pools team)).1,
        (fillPool q desired itr (pools team)).2) := by
  induction itr generalizing pools with
  | nil => rw [fillFrom,fillPool,Function.update_eq_self]
  | cons ginfo rest ih =>
    rw [fillFrom,fillPool,addTo]
    rcases hadd : (pools team).AddGroup q ginfo desired with ⟨added,more⟩
    cases more with
    | false => rfl
    | true =>
      dsimp only
      rw [ih,Function.update_self,Function.update_idem]

/-- The iterator passes a group, which `AddGroup` may add. -/
theorem TeamRight.addGroup {ginfo : Ptr} {rest : List Ptr} (hqueue : queue.Nodup)
    (h : TeamRight q queue free (ginfo::rest) pool) (hdesired : desired ≤ free) :
    TeamRight q queue free rest (pool.AddGroup q ginfo desired).1 := by
  obtain ⟨passed,happend,hsub⟩ := h.passed
  have hnew : ginfo∉pool.SelectedGroups := by
    intro hmem
    rw [← happend,List.nodup_append] at hqueue
    exact hqueue.2.2 ginfo (hsub hmem) ginfo List.mem_cons_self rfl
  refine ⟨h.toFilled.addGroup hdesired hnew,passed++[ginfo],?_,fun other hother => ?_⟩
  · rw [List.append_assoc]
    exact happend
  · rcases mem_addGroup hother with hother | rfl
    · exact List.mem_append_left _ (hsub hother)
    · exact List.mem_append_right _ (List.mem_singleton_self _)

theorem TeamRight.kickGroup (h : TeamRight q queue free itr pool) (wanted : ℕ) :
    TeamRight q queue free itr (pool.KickGroup q.size wanted).1 := by
  obtain ⟨passed,happend,hsub⟩ := h.passed
  refine ⟨h.toFilled.kickGroup wanted,passed,happend,fun other hother => hsub ?_⟩
  rcases KickGroup_fst_cases q.size pool wanted with ⟨-,kicked,-,hkicked⟩ | ⟨-,hsame⟩
  · rw [hkicked] at hother
    exact List.mem_of_mem_erase hother
  · rw [hsame] at hother
    exact hother

/-- A fill keeps the pool right; by induction on what is behind the iterator. -/
theorem TeamRight.fillPool (hqueue : queue.Nodup) (h : TeamRight q queue free itr pool)
    (hdesired : desired ≤ free) :
    TeamRight q queue free (fillPool q desired itr pool).2 (fillPool q desired itr pool).1 := by
  induction itr generalizing pool with
  | nil => exact h
  | cons ginfo rest ih =>
    rw [BattlegroundQueueModel.fillPool]
    have hadd := h.addGroup hqueue hdesired
    rcases hround : pool.AddGroup q ginfo desired with ⟨added,more⟩
    rw [hround] at hadd
    cases more with
    | true => exact ih hadd
    | false =>
      -- nothing was added where `AddGroup` says that the pool is full
      have hsame : added=pool := by
        rcases AddGroup_fst_cases pool q ginfo desired with ⟨-,hinvited,hfits⟩ | hsame
        · rw [AddGroup_of_fits hinvited hfits] at hround
          cases hround
        · rw [hround] at hsame
          exact hsame
      rw [hsame]
      exact h

/-- A fill does nothing or makes the weight smaller. -/
theorem weight_fillPool (q : BattlegroundQueue) (desired : ℕ) (itr : List Ptr)
    (pool : SelectionPool) :
    BattlegroundQueueModel.fillPool q desired itr pool=(pool,itr) ∨
      weight (BattlegroundQueueModel.fillPool q desired itr pool).2
        (BattlegroundQueueModel.fillPool q desired itr pool).1 < weight itr pool := by
  induction itr generalizing pool with
  | nil => exact Or.inl rfl
  | cons ginfo rest ih =>
    rw [BattlegroundQueueModel.fillPool]
    rcases hround : pool.AddGroup q ginfo desired with ⟨added,more⟩
    have hcases := AddGroup_fst_cases pool q ginfo desired
    rw [hround] at hcases
    cases more with
    | false =>
      rcases hcases with ⟨-,hinvited,hfits⟩ | hsame
      · rw [AddGroup_of_fits hinvited hfits] at hround
        cases hround
      · exact Or.inl (congrArg (fun pool => (pool,ginfo::rest)) hsame)
    | true =>
      refine Or.inr ?_
      have hlt : weight rest added < weight (ginfo::rest) pool := by
        unfold weight
        rw [List.length_cons]
        rcases hcases with ⟨hadded,-,-⟩ | hsame
        · rw [show added=_ from hadded,List.length_append,List.length_singleton]
          omega
        · rw [show added=pool from hsame]
          omega
      rcases ih added with hnothing | hless
      · dsimp only
        rw [hnothing]
        exact hlt
      · exact hless.trans hlt

/-- A kick that finds players makes the weight smaller; without players it does nothing. -/
theorem weight_kickGroup (itr : List Ptr) (pool : SelectionPool) (wanted : ℕ)
    (hpool : pool.SelectedGroups≠[]) (hcount : pool.PlayerCount≠0) :
    weight itr (pool.KickGroup q.size wanted).1 < weight itr pool := by
  rcases KickGroup_fst_cases q.size pool wanted with ⟨-,kicked,hmem,hkicked⟩ | ⟨hempty,-⟩
  · rw [hkicked]
    have hlength := List.length_erase_of_mem hmem
    have hpos := List.length_pos_of_mem hmem
    unfold weight
    dsimp only
    omega
  · exact (hempty.elim hcount hpool).elim

theorem weight_kickGroup_le (q : BattlegroundQueue) (itr : List Ptr) (pool : SelectionPool)
    (wanted : ℕ) : weight itr (pool.KickGroup q.size wanted).1 ≤ weight itr pool := by
  rcases KickGroup_fst_cases q.size pool wanted with ⟨-,kicked,hmem,hkicked⟩ | ⟨-,hsame⟩
  · rw [hkicked]
    have : (pool.SelectedGroups.erase kicked).length ≤ pool.SelectedGroups.length :=
      List.length_erase_le
    unfold weight
    dsimp only
    omega
  · rw [hsame]

end

/-- A team's pool and iterator after a kick and the refill. -/
def kickedPool (q : BattlegroundQueue) (surplus desired : ℕ) (itr : List Ptr)
    (pool : SelectionPool) : SelectionPool×List Ptr :=
  let kicked := pool.KickGroup q.size surplus
  if kicked.2 then fillPool q desired itr kicked.1 else (kicked.1,itr)

section

variable {q : BattlegroundQueue} {queue : Team → List Ptr} {free : Team → ℕ} {state : Filling}

theorem Filling.fill_eq (q : BattlegroundQueue) (team : Team) (desired : ℕ) (state : Filling) :
    Filling.fill q team desired state=
      ⟨Function.update state.pools team (fillPool q desired (state.itr team) (state.pools team)).1,
        Function.update state.itr team
          (fillPool q desired (state.itr team) (state.pools team)).2⟩ := by
  unfold Filling.fill
  rw [fillFrom_eq]

/-- A branch of the balancing loop, by the pools of the two teams. -/
theorem Filling.kick_eq (q : BattlegroundQueue) (free : Team → ℕ) (team : Team)
    (state : Filling) :
    state.kick q free team=
      let diffOther := state.diff free team.other
      let surplus := (diffOther-state.diff free team).toNat
      let own :=
        kickedPool q surplus ((free team : ℤ)-diffOther).toNat (state.itr team) (state.pools team)
      let refilled : Filling :=
        ⟨Function.update state.pools team own.1,Function.update state.itr team own.2⟩
      if own.1.PlayerCount=0 then
        if (free team : ℤ) ≤ diffOther+1 then (refilled,false)
        else
          (⟨Function.update refilled.pools team.other
            ((state.pools team.other).KickGroup q.size surplus).1,refilled.itr⟩,true)
      else (refilled,true) := by
  have hother : team.other≠team := by cases team <;> decide
  unfold Filling.kick kickedPool kickFrom
  dsimp only
  by_cases hmore : ((state.pools team).KickGroup q.size
      (state.diff free team.other-state.diff free team).toNat).2=true
  · rw [if_pos hmore,if_pos hmore,Filling.fill_eq]
    simp only [Function.update_self,Function.update_idem,Function.update_of_ne hother]
  · rw [if_neg hmore,if_neg hmore]
    simp only [Function.update_self,Function.update_of_ne hother,Function.update_eq_self]

/-- Both teams' pools and iterators are right. -/
def FillingRight (q : BattlegroundQueue) (queue : Team → List Ptr) (free : Team → ℕ)
    (state : Filling) : Prop :=
  ∀ team,TeamRight q (queue team) (free team) (state.itr team) (state.pools team)

/-- One team's pool and iterator replaced by right ones. -/
theorem FillingRight.update (h : FillingRight q queue free state) (team : Team)
    {itr : List Ptr} {pool : SelectionPool}
    (hteam : TeamRight q (queue team) (free team) itr pool) :
    FillingRight q queue free
      ⟨Function.update state.pools team pool,Function.update state.itr team itr⟩ := by
  intro side
  dsimp only
  by_cases hside : side=team
  · subst hside
    rw [Function.update_self,Function.update_self]
    exact hteam
  · rw [Function.update_of_ne hside,Function.update_of_ne hside]
    exact h side

theorem TeamRight.kickedPool {queue : List Ptr} {free desired : ℕ} {itr : List Ptr}
    {pool : SelectionPool} (hqueue : queue.Nodup) (h : TeamRight q queue free itr pool)
    (surplus : ℕ) (hdesired : desired ≤ free) :
    TeamRight q queue free (kickedPool q surplus desired itr pool).2
      (kickedPool q surplus desired itr pool).1 := by
  unfold BattlegroundQueueModel.kickedPool
  dsimp only
  split
  · exact (h.kickGroup surplus).fillPool hqueue hdesired
  · exact h.kickGroup surplus

/-- The weight after a kick and the refill; it is the same only where nothing was kicked and the
pool was refilled with nothing. -/
theorem weight_kickedPool (q : BattlegroundQueue) (surplus desired : ℕ) (itr : List Ptr)
    (pool : SelectionPool) :
    weight (kickedPool q surplus desired itr pool).2 (kickedPool q surplus desired itr pool).1<
        weight itr pool ∨
      (pool.PlayerCount=0 ∨ pool.SelectedGroups=[]) ∧
        kickedPool q surplus desired itr pool=(pool,itr) := by
  have hfill := weight_fillPool q desired itr (pool.KickGroup q.size surplus).1
  have hle := weight_kickGroup_le q itr pool surplus
  unfold kickedPool
  dsimp only
  rcases KickGroup_fst_cases q.size pool surplus with ⟨hcount,kicked,hmem,-⟩ | ⟨hempty,hsame⟩
  · have hlt := @weight_kickGroup q itr pool surplus (List.ne_nil_of_mem hmem) hcount
    refine Or.inl ?_
    split
    · rcases hfill with hnothing | hless
      · rw [hnothing]
        exact hlt
      · exact hless.trans hlt
    · exact hlt
  · rw [hsame] at hfill ⊢
    rw [if_pos rfl]
    rcases hfill with hnothing | hless
    · exact Or.inr ⟨hempty,hnothing⟩
    · exact Or.inl hless

/-- The weight of both teams. -/
def Filling.weight (state : Filling) : ℕ :=
  BattlegroundQueueModel.weight (state.itr ALLIANCE) (state.pools ALLIANCE)+
    BattlegroundQueueModel.weight (state.itr HORDE) (state.pools HORDE)

/-- The weight from either team's point of view. -/
theorem Filling.weight_eq (state : Filling) (team : Team) :
    state.weight=BattlegroundQueueModel.weight (state.itr team) (state.pools team)+
      BattlegroundQueueModel.weight (state.itr team.other) (state.pools team.other) := by
  cases team with
  | ALLIANCE => rfl
  | HORDE => exact Nat.add_comm _ _

/-- A branch of the balancing loop keeps both teams right. -/
theorem FillingRight.kick (hqueue : ∀ team,(queue team).Nodup)
    (h : FillingRight q queue free state) (team : Team) :
    FillingRight q queue free (state.kick q free team).1 := by
  have hdesired : ((free team : ℤ)-state.diff free team.other).toNat ≤ free team := by
    have hle := (h team.other).le
    unfold Filling.diff
    omega
  have hown := (h team).kickedPool (hqueue team)
    (state.diff free team.other-state.diff free team).toNat hdesired
  have hrefilled := h.update team hown
  have hother : team.other≠team := by cases team <;> decide
  rw [Filling.kick_eq]
  dsimp only
  split
  · split
    · exact hrefilled
    have hkicked := (h team.other).kickGroup
      (state.diff free team.other-state.diff free team).toNat
    intro side
    dsimp only
    by_cases hside : side=team.other
    · subst hside
      rw [Function.update_self,Function.update_of_ne hother]
      exact hkicked
    · rw [Function.update_of_ne hside]
      exact hrefilled side
  · exact hrefilled

theorem kick_break {team : Team} {next : Filling} (h : state.kick q free team=(next,false)) :
    (next.pools team).PlayerCount=0 := by
  rw [Filling.kick_eq] at h
  dsimp only at h
  split at h
  · rename_i hzero
    split at h
    · obtain ⟨rfl,-⟩ := Prod.mk.inj h
      dsimp only
      rw [Function.update_self]
      exact hzero
    · cases h
  · cases h

/-- A round that does not break makes the weight smaller: with a player in the pool a group is
kicked, and without one a group must be added, or the loop breaks. -/
theorem weight_kick {team : Team} {next : Filling}
    (hsize : (state.pools team).PlayerCount=0 ∨ (state.pools team).SelectedGroups=[] →
      (state.pools team).PlayerCount=0)
    (hdiff : state.diff free team < state.diff free team.other)
    (h : state.kick q free team=(next,true)) : next.weight < state.weight := by
  have hother : team.other≠team := by cases team <;> decide
  have hown := weight_kickedPool q (state.diff free team.other-state.diff free team).toNat
    ((free team : ℤ)-state.diff free team.other).toNat (state.itr team) (state.pools team)
  have hkick := weight_kickGroup_le q (state.itr team.other) (state.pools team.other)
    (state.diff free team.other-state.diff free team).toNat
  rw [Filling.kick_eq] at h
  dsimp only at h
  rw [state.weight_eq team,next.weight_eq team]
  split at h
  · rename_i hzero
    split at h
    · cases h
    rename_i hfree
    obtain ⟨rfl,-⟩ := Prod.mk.inj h
    dsimp only
    rw [Function.update_of_ne hother.symm,Function.update_self,Function.update_self,
      Function.update_of_ne hother,Function.update_self]
    rcases hown with hless | ⟨hempty,hnothing⟩
    · omega
    -- nothing was kicked and nothing was added: the loop would have broken
    have hcount := hsize hempty
    refine absurd ?_ hfree
    unfold Filling.diff at hdiff ⊢
    rw [hcount] at hdiff
    omega
  · rename_i hplayers
    obtain ⟨rfl,-⟩ := Prod.mk.inj h
    dsimp only
    rw [Function.update_self,Function.update_self,Function.update_of_ne hother,
      Function.update_of_ne hother]
    rcases hown with hless | ⟨hempty,hnothing⟩
    · omega
    · rw [hnothing] at hplayers
      exact absurd (hsize hempty) hplayers

end

/-- The guard of the balancing loop. -/
def balanceGuard (free : Team → ℕ) (state : Filling) : Bool :=
  1 < (state.diff free ALLIANCE-state.diff free HORDE).natAbs &&
    (0 < (state.pools HORDE).PlayerCount || 0 < (state.pools ALLIANCE).PlayerCount)

/-- A round of the balancing loop. -/
def balanceRound (q : BattlegroundQueue) (free : Team → ℕ) (state : Filling) : Filling×Bool :=
  state.kick q free
    (if state.diff free ALLIANCE < state.diff free HORDE then ALLIANCE else HORDE)

/-- The team's normal queue. -/
def normalQueue (q : BattlegroundQueue) (bracket_id : BattlegroundBracketId) (team : Team) :
    List Ptr :=
  q.m_QueuedGroups (bracket_id,BG_QUEUE_NORMAL team)

/-- The pools and iterators before the balancing loop. -/
def initialFilling (bg : Battleground) (bracket_id : BattlegroundBracketId)
    (q : BattlegroundQueue) : Filling :=
  Filling.fill q HORDE (bg.GetFreeSlotsForTeam HORDE)
    (Filling.fill q ALLIANCE (bg.GetFreeSlotsForTeam ALLIANCE)
      ⟨q.m_SelectionPools,normalQueue q bracket_id⟩)

section

variable {q : BattlegroundQueue} {bracket_id : BattlegroundBracketId} {bg : Battleground}
variable {queue : Team → List Ptr} {free : Team → ℕ} {state : Filling}

/-- The balancing loop of the model is the loop with a fuel. -/
theorem balance_eq_fuelled (q : BattlegroundQueue) (free : Team → ℕ) (fuel : ℕ)
    (state : Filling) :
    Filling.balance q free fuel state=
      fuelled (balanceGuard free) (balanceRound q free) fuel state := by
  induction fuel generalizing state with
  | zero => rfl
  | succ fuel ih =>
    rw [Filling.balance,fuelled]
    show (if balanceGuard free state=true then _ else _)=_
    split
    · unfold balanceRound
      dsimp only
      generalize state.kick q free _=round
      obtain ⟨next,goes⟩ := round
      cases goes with
      | true => exact ih next
      | false => rfl
    · rfl

/-- A round that goes on keeps both teams right and makes the weight smaller. -/
theorem FillingRight.round (hqueue : ∀ team,(queue team).Nodup)
    (h : FillingRight q queue free state) {next : Filling} (hguard : balanceGuard free state=true)
    (hround : balanceRound q free state=(next,true)) :
    FillingRight q queue free next ∧ next.weight < state.weight := by
  have hcount : ∀ team,(state.pools team).PlayerCount=0 ∨ (state.pools team).SelectedGroups=[] →
      (state.pools team).PlayerCount=0 := by
    rintro team (hzero | hnil)
    · exact hzero
    · rw [(h team).count,hnil]
      rfl
  have hapart : 1 < (state.diff free ALLIANCE-state.diff free HORDE).natAbs := by
    unfold balanceGuard at hguard
    simp only [Bool.and_eq_true,decide_eq_true_eq] at hguard
    exact hguard.1
  unfold balanceRound at hround
  have hkept := h.kick hqueue
    (if state.diff free ALLIANCE < state.diff free HORDE then ALLIANCE else HORDE)
  rw [hround] at hkept
  refine ⟨hkept,weight_kick (hcount _) ?_ hround⟩
  split
  · assumption
  · show state.diff free HORDE < state.diff free ALLIANCE
    omega

/-- Both teams are right before the balancing loop. -/
theorem initialFilling_right (hpools : q.m_SelectionPools=fun _ => SelectionPool.Init)
    (hqueue : ∀ team,(normalQueue q bracket_id team).Nodup) :
    FillingRight q (normalQueue q bracket_id) bg.GetFreeSlotsForTeam
      (initialFilling bg bracket_id q) := by
  have hnew : FillingRight q (normalQueue q bracket_id) bg.GetFreeSlotsForTeam
      ⟨q.m_SelectionPools,normalQueue q bracket_id⟩ := by
    intro team
    rw [hpools]
    exact ⟨Filled.init,[],rfl,List.nil_subset _⟩
  have hfill : ∀ {state : Filling} (team : Team),
      FillingRight q (normalQueue q bracket_id) bg.GetFreeSlotsForTeam state →
        FillingRight q (normalQueue q bracket_id) bg.GetFreeSlotsForTeam
          (Filling.fill q team (bg.GetFreeSlotsForTeam team) state) := by
    intro state team h
    rw [Filling.fill_eq]
    exact h.update team ((h team).fillPool (hqueue team) le_rfl)
  exact hfill HORDE (hfill ALLIANCE hnew)

/-- The fill of the model, by the loop with a fuel. -/
theorem FillPlayersToBG_eq {world : World} (hpath : bg.isArena=true ∨ world.crossfaction=false)
    (htype : world.invitationType≠0) :
    FillPlayersToBG world bg bracket_id q=
      { q with
        m_SelectionPools :=
          (fuelled (balanceGuard bg.GetFreeSlotsForTeam) (balanceRound q bg.GetFreeSlotsForTeam)
            ((initialFilling bg bracket_id q).weight+1) (initialFilling bg bracket_id q)).pools } := by
  have hmixed : (if bg.isArena then (q,false)
      else FillXPlayersToBG world bracket_id bg false 0 0 q)=(q,false) := by
    split
    · rfl
    rename_i harena
    unfold FillXPlayersToBG
    rw [if_neg]
    simp [hpath.resolve_left harena]
  have hrounds : ∀ state : Filling,
      (state.pools ALLIANCE).SelectedGroups.length+(state.pools HORDE).SelectedGroups.length+
        2*((state.itr ALLIANCE).length+(state.itr HORDE).length)=state.weight := by
    intro state
    unfold Filling.weight BattlegroundQueueModel.weight
    omega
  unfold FillPlayersToBG
  simp only [hmixed]
  rw [if_neg Bool.false_ne_true,if_neg htype,hrounds,balance_eq_fuelled]
  rfl

end

/-- What the fill of a battleground leaves in the pools. -/
structure BalancedFill (q : BattlegroundQueue) (bg : Battleground)
    (bracket_id : BattlegroundBracketId) (pools : Pools) : Prop where
  /-- `PlayerCount` counts the players of the selected groups. -/
  count : ∀ team,(pools team).PlayerCount=((pools team).SelectedGroups.map q.size).sum
  within : ∀ team,(pools team).PlayerCount ≤ bg.GetFreeSlotsForTeam team
  once : ∀ team,(pools team).SelectedGroups.Nodup
  queued : ∀ team,∀ ginfo∈(pools team).SelectedGroups,
    ginfo∈normalQueue q bracket_id team ∧ q.invited ginfo=false
  /-- The teams are balanced, or one has nothing selected. -/
  balanced :
    (((bg.GetFreeSlotsForTeam ALLIANCE : ℤ)-(pools ALLIANCE).PlayerCount)-
        ((bg.GetFreeSlotsForTeam HORDE : ℤ)-(pools HORDE).PlayerCount)).natAbs ≤ 1 ∨
      ∃ team,(pools team).SelectedGroups=[]

/-- The fill of a battleground without cross-faction teams and with balanced invitations: the
balancing loop ends, and it leaves balanced pools. -/
theorem FillPlayersToBG_ends_balanced (world : World) (bg : Battleground)
    (bracket_id : BattlegroundBracketId) (q : BattlegroundQueue)
    (hpath : bg.isArena=true ∨ world.crossfaction=false) (htype : world.invitationType≠0)
    (hpools : q.m_SelectionPools=fun _ => SelectionPool.Init)
    (hqueue : ∀ team,(normalQueue q bracket_id team).Nodup)
    (hsize : ∀ team,∀ ginfo∈normalQueue q bracket_id team,1 ≤ q.size ginfo) :
    ∃ last,
      Runs (balanceGuard bg.GetFreeSlotsForTeam) (balanceRound q bg.GetFreeSlotsForTeam)
          (initialFilling bg bracket_id q) last ∧
        FillPlayersToBG world bg bracket_id q={ q with m_SelectionPools := last.pools } ∧
        BalancedFill q bg bracket_id last.pools := by
  have hright := @initialFilling_right q bracket_id bg hpools hqueue
  have hruns := runs_fuelled (fun state next h hguard hround => h.round hqueue hguard hround)
    hright (Nat.lt_succ_self (initialFilling bg bracket_id q).weight)
  have hfill := @FillPlayersToBG_eq q bracket_id bg world hpath htype
  generalize fuelled (balanceGuard bg.GetFreeSlotsForTeam) (balanceRound q bg.GetFreeSlotsForTeam)
    ((initialFilling bg bracket_id q).weight+1) (initialFilling bg bracket_id q)=last
    at hruns hfill
  obtain ⟨hlast,hend⟩ := hruns.invariant
    (B := fun state => ∃ team,(state.pools team).PlayerCount=0)
    (fun state next h hguard hround => (h.round hqueue hguard hround).1)
    (fun state next h hguard hround => by
      have hkept := h.kick hqueue
        (if state.diff bg.GetFreeSlotsForTeam ALLIANCE < state.diff bg.GetFreeSlotsForTeam HORDE
          then ALLIANCE else HORDE)
      unfold balanceRound at hround
      rw [hround] at hkept
      exact ⟨hkept,_,kick_break hround⟩) hright
  have hmem : ∀ team,∀ ginfo∈(last.pools team).SelectedGroups,
      ginfo∈normalQueue q bracket_id team := by
    intro team ginfo hginfo
    obtain ⟨passed,happend,hsub⟩ := (hlast team).passed
    rw [← happend]
    exact List.mem_append_left _ (hsub hginfo)
  have hnil : ∀ team,(last.pools team).PlayerCount=0 → (last.pools team).SelectedGroups=[] :=
    fun team hzero => (hlast team).toFilled.eq_nil
      (fun ginfo hginfo => hsize team ginfo (hmem team ginfo hginfo)) hzero
  refine ⟨last,hruns,hfill,⟨fun team => (hlast team).count,fun team => (hlast team).le,
    fun team => (hlast team).nodup,
    fun team ginfo hginfo => ⟨hmem team ginfo hginfo,(hlast team).uninvited ginfo hginfo⟩,?_⟩⟩
  rcases hend with hguard | ⟨team,hzero⟩
  · unfold balanceGuard at hguard
    simp only [Bool.and_eq_false_iff,Bool.or_eq_false_iff,decide_eq_false_iff_not] at hguard
    rcases hguard with hclose | ⟨-,hzero⟩
    · exact Or.inl (not_lt.mp hclose)
    · exact Or.inr ⟨ALLIANCE,hnil ALLIANCE (by omega)⟩
  · exact Or.inr ⟨team,hnil team hzero⟩

/-- A running battleground with three free places for each team. -/
def openBattleground : Battleground :=
  { skirmishArena 0 with
    isArena := false
    GetFreeSlotsForTeam := fun _ => 3 }

/-- A group of one and a group of two wait for the alliance, nobody for the horde. -/
def unevenQueue : BattlegroundQueue :=
  { BattlegroundQueue.empty with
    heap := fun ginfo =>
      if ginfo∈[1,2] then
        some (Join.ginfo { skirmishJoin 0 with grp := some (List.range' (100*ginfo) ginfo) })
      else none
    m_QueuedGroups := fun slot => if slot=(0,BG_QUEUE_NORMAL ALLIANCE) then [1,2] else [] }

/-- The group of two is kicked again. -/
theorem FillPlayersToBG_ends_balanced_sample :
    (∃ last,
      Runs (balanceGuard openBattleground.GetFreeSlotsForTeam)
          (balanceRound unevenQueue openBattleground.GetFreeSlotsForTeam)
          (initialFilling openBattleground 0 unevenQueue) last ∧
        FillPlayersToBG { skirmishWorld with invitationType := 1 } openBattleground 0 unevenQueue=
          { unevenQueue with m_SelectionPools := last.pools } ∧
        BalancedFill unevenQueue openBattleground 0 last.pools) ∧
      ((FillPlayersToBG { skirmishWorld with invitationType := 1 } openBattleground 0
        unevenQueue).m_SelectionPools ALLIANCE).SelectedGroups=[1] := by
  refine ⟨FillPlayersToBG_ends_balanced { skirmishWorld with invitationType := 1 }
    openBattleground 0 unevenQueue (Or.inr rfl) Nat.one_ne_zero rfl ?_ ?_,by decide⟩
  · intro team
    cases team <;> decide
  · intro team
    cases team <;> decide

end Projectnelth.BattlegroundQueueModel
