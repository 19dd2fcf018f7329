import Mathlib
import Projectnelth.BattlegroundQueueBooks

/-!
# The start of a cross-faction battleground

With single players the pre-add takes as many of both factions and leaves the
virtual free places equal, and the balancing loop keeps both sides within one player of each
other until everyone is selected or both sides are full. So enough players always start a
battleground, if the gate lets them in: it counts them in a `uint8`.
-/

namespace Projectnelth.BattlegroundQueueModel

open Team BattlegroundQueueGroupTypes BattlegroundQueue GreedyFill RunInvariant

/-- The number of the players in a pool. -/
def MixedPoint.count (point : MixedPoint) (team : Team) : ℕ :=
  (point.q.m_SelectionPools team).PlayerCount

/-- Both sides were filled evenly: the virtual free places are off by the same `offset`. -/
structure Even (most offset : ℕ) (point : MixedPoint) : Prop where
  /-- The virtual free places. -/
  vfree : ∀ team,point.vfree team+point.count team=most+offset
  /-- No side is more than one player ahead. -/
  balanced : ∀ team,point.count team ≤ point.count team.other+1

/-- The group is selected, or there is no place for anyone. -/
def Settled (most : ℕ) (point : MixedPoint) (ginfo : Ptr) : Prop :=
  (∃ team,ginfo∈(point.q.m_SelectionPools team).SelectedGroups) ∨ ∀ team,point.count team=most

section

variable {size : Ptr → ℕ} {invited : Ptr → Bool} {free : Team → ℕ} {most offset : ℕ}
variable {point : MixedPoint} {ginfo : Ptr}

theorem Team.eq_or_other (team side : Team) : team=side ∨ team=side.other := by
  cases team <;> cases side <;> simp [Team.other]

@[simp]
theorem Team.other_other (team : Team) : team.other.other=team := by
  cases team <;> rfl

theorem count_mixedStep (h : point.skips ginfo=false) (team : Team) :
    (mixedStep free point ginfo).count team=
      if team=point.side ginfo then
        ((point.q.m_SelectionPools team).AddGroup (point.sided ginfo) ginfo
          (free team)).1.PlayerCount
      else point.count team := by
  unfold MixedPoint.count
  rw [mixedStep_pools h]
  split
  · rfl
  · rfl

/-- A pool only grows. -/
theorem count_le_mixedStep (free : Team → ℕ) (point : MixedPoint) (ginfo : Ptr) (team : Team) :
    point.count team ≤ (mixedStep free point ginfo).count team := by
  cases hskip : point.skips ginfo with
  | true => rw [mixedStep_of_skips hskip]
  | false =>
    rw [count_mixedStep hskip]
    split
    · rcases AddGroup_fst_cases (point.q.m_SelectionPools team) (point.sided ginfo) ginfo
        (free team) with ⟨hadded,-,-⟩ | hsame
      · rw [hadded]
        exact Nat.le_add_right _ _
      · rw [hsame]
        exact le_rfl
    · exact le_rfl

theorem Settled.step (h : MixedFilled size invited free point) (hfree : ∀ team,free team=most)
    {other : Ptr} (hsettled : Settled most point other) :
    Settled most (mixedStep free point ginfo) other := by
  rcases hsettled with ⟨team,hmem⟩ | hfull
  · refine Or.inl ⟨team,?_⟩
    cases hskip : point.skips ginfo with
    | true =>
      rw [mixedStep_of_skips hskip]
      exact hmem
    | false =>
      rw [mixedStep_pools hskip]
      split
      · exact mem_addGroup_of_mem hmem
      · exact hmem
  · refine Or.inr fun team => ?_
    have hle : (mixedStep free point ginfo).count team ≤ free team :=
      ((h.step ginfo).filled team).le
    have hge := count_le_mixedStep free point ginfo team
    rw [hfull] at hge
    rw [hfree] at hle
    omega

/-- A round with a single player keeps the sides even and settles the player. -/
theorem Even.step (h : MixedFilled size invited free point) (hfree : ∀ team,free team=most)
    (hsize : size ginfo=1) (hinvited : invited ginfo=false)
    (hlive : (point.q.heap ginfo).isSome) (heven : Even most offset point) :
    Even most offset (mixedStep free point ginfo) ∧
      Settled most (mixedStep free point ginfo) ginfo := by
  have hle : ∀ team,point.count team ≤ most := fun team => hfree team ▸ (h.filled team).le
  cases hskip : point.skips ginfo with
  | true =>
    rw [mixedStep_of_skips hskip]
    refine ⟨heven,?_⟩
    have hwhy := mt not_skips_iff.mpr (by rw [hskip]; simp)
    rw [h.invitations,and_iff_right hinvited,not_and_or,not_forall,not_not] at hwhy
    rcases hwhy with ⟨team,hmem⟩ | hzero
    · exact Or.inl ⟨team,not_not.mp hmem⟩
    refine Or.inr fun team => ?_
    have hali := heven.vfree ALLIANCE
    have hhorde := heven.vfree HORDE
    have hleAli := hle ALLIANCE
    have hleHorde := hle HORDE
    cases team with
    | ALLIANCE => omega
    | HORDE => omega
  | false =>
    set side := point.side ginfo with hside
    have hfew : point.count side ≤ point.count side.other := by
      by_contra hmore
      have hlt : point.vfree side.other.other < point.vfree side.other := by
        have hvside := heven.vfree side
        have hvother := heven.vfree side.other
        rw [Team.other_other]
        omega
      exact side.other_ne (side_of_lt hlive hlt).symm
    have hone : (point.sided ginfo).size ginfo=1 := by
      rw [sided_size,h.sizes]
      exact hsize
    have hfalse : (point.sided ginfo).invited ginfo=false := by
      rw [sided_invited,h.invitations]
      exact hinvited
    have hother : (mixedStep free point ginfo).count side.other=point.count side.other := by
      rw [count_mixedStep hskip,if_neg side.other_ne]
    have hvother : (mixedStep free point ginfo).vfree side.other=point.vfree side.other := by
      rw [mixedStep_vfree hskip,if_neg fun hand => side.other_ne hand.1]
    have hvs := heven.vfree side
    have hvo := heven.vfree side.other
    have hbalanced := heven.balanced side.other
    rw [Team.other_other] at hbalanced
    by_cases hplace : point.count side < most
    · have hfits : (point.q.m_SelectionPools side).PlayerCount+(point.sided ginfo).size ginfo ≤
          free side := by
        rw [hone,hfree]
        exact hplace
      have hcount : (mixedStep free point ginfo).count side=point.count side+1 := by
        rw [count_mixedStep hskip,if_pos rfl,AddGroup_of_fits hfalse hfits,hone]
        rfl
      have hv : (mixedStep free point ginfo).vfree side=point.vfree side-1 := by
        rw [mixedStep_vfree hskip,AddGroup_of_fits hfalse hfits,if_pos ⟨rfl,rfl⟩,h.sizes,hsize]
        rfl
      refine ⟨⟨fun team => ?_,fun team => ?_⟩,Or.inl ⟨side,?_⟩⟩
      · rcases team.eq_or_other side with rfl | rfl
        · rw [hcount,hv]
          omega
        · rw [hother,hvother]
          exact hvo
      · rcases team.eq_or_other side with rfl | rfl
        · rw [hcount,hother]
          omega
        · rw [hother,Team.other_other,hcount]
          omega
      · rw [mixedStep_pools hskip,if_pos rfl,AddGroup_of_fits hfalse hfits]
        exact List.mem_append_right _ (List.mem_singleton_self ginfo)
    · have hfull : (point.q.m_SelectionPools side).PlayerCount=most := by
        have := hle side
        unfold MixedPoint.count at hplace this
        omega
      have hover : free side<
          (point.q.m_SelectionPools side).PlayerCount+(point.sided ginfo).size ginfo := by
        rw [hone,hfree,hfull]
        exact Nat.lt_succ_self most
      have hcount : (mixedStep free point ginfo).count side=point.count side := by
        rw [count_mixedStep hskip,if_pos rfl,AddGroup_of_not_fits (Or.inr hover)]
        rfl
      have hv : (mixedStep free point ginfo).vfree side=point.vfree side := by
        rw [mixedStep_vfree hskip,AddGroup_of_not_fits (Or.inr hover)]
        refine if_neg fun hand => ?_
        have := of_decide_eq_true hand.2
        rw [hfree,hfull] at this
        exact lt_irrefl _ this
      have hsame : ∀ team,(mixedStep free point ginfo).count team=point.count team := by
        intro team
        rcases team.eq_or_other side with rfl | rfl
        · exact hcount
        · exact hother
      refine ⟨⟨fun team => ?_,fun team => ?_⟩,Or.inr fun team => ?_⟩
      · rw [hsame]
        rcases team.eq_or_other side with rfl | rfl
        · rw [hv]
          exact hvs
        · rw [hvother]
          exact hvo
      · rw [hsame,hsame]
        exact heven.balanced team
      rw [hsame]
      have hleOther := hle side.other
      have hcountSide : point.count side=most := hfull
      rcases team.eq_or_other side with rfl | rfl
      · exact hcountSide
      · omega

/-- The run of the balancing loop over single players. -/
theorem Even.run {groups : List Ptr} (h : MixedFilled size invited free point)
    (hfree : ∀ team,free team=most) (hsize : ∀ ginfo∈groups,size ginfo=1)
    (hinvited : ∀ ginfo∈groups,invited ginfo=false)
    (hlive : ∀ ginfo∈groups,(point.q.heap ginfo).isSome) (heven : Even most offset point) :
    Even most offset (run (mixedStep free) point groups) ∧
      ∀ ginfo∈groups,Settled most (run (mixedStep free) point groups) ginfo := by
  induction groups generalizing point with
  | nil => exact ⟨heven,fun _ hmem => absurd hmem List.not_mem_nil⟩
  | cons first rest ih =>
    obtain ⟨hstep,hsettled⟩ := heven.step h hfree (hsize first List.mem_cons_self)
      (hinvited first List.mem_cons_self) (hlive first List.mem_cons_self)
    have hnext := h.step first
    obtain ⟨hrun,hrest⟩ := ih hnext
      (fun ginfo hmem => hsize ginfo (List.mem_cons_of_mem first hmem))
      (fun ginfo hmem => hinvited ginfo (List.mem_cons_of_mem first hmem))
      (fun ginfo hmem => (mixedStep_live free point first ginfo).trans
        (hlive ginfo (List.mem_cons_of_mem first hmem))) hstep
    refine ⟨hrun,fun ginfo hmem => ?_⟩
    rcases List.mem_cons.mp hmem with rfl | hmem
    · -- the first group stays settled in the rounds of the others
      exact (run_invariant_always
        (I := fun point => MixedFilled size invited free point ∧ Settled most point ginfo)
        (fun point other hpoint => ⟨hpoint.1.step other,hpoint.2.step hpoint.1 hfree⟩)
        ⟨hnext,hsettled⟩ rest).2
    · exact hrest ginfo hmem

end

section

variable {q : BattlegroundQueue} {bracket_id : BattlegroundBracketId} {most : ℕ}
variable {free : Team → ℕ}

/-- The mixed list is made of single players without an invitation. -/
structure Singles (bracket_id : BattlegroundBracketId) (q : BattlegroundQueue) : Prop where
  nodup : (q.m_QueuedGroups (bracket_id,BG_QUEUE_MIXED)).Nodup
  single : ∀ ginfo∈q.m_QueuedGroups (bracket_id,BG_QUEUE_MIXED),q.size ginfo=1
  uninvited : ∀ ginfo∈q.m_QueuedGroups (bracket_id,BG_QUEUE_MIXED),q.invited ginfo=false

/-- A group with a player is allocated. -/
theorem live_of_size {ginfo : Ptr} (h : q.size ginfo=1) : (q.heap ginfo).isSome := by
  cases hheap : q.heap ginfo with
  | some g => rfl
  | none =>
    unfold BattlegroundQueue.size BattlegroundQueue.info at h
    rw [hheap] at h
    cases h

theorem sum_ones {size : Ptr → ℕ} {groups : List Ptr} (h : ∀ ginfo∈groups,size ginfo=1) :
    (groups.map size).sum=groups.length := by
  rw [List.map_congr_left h,List.map_const',List.sum_replicate_nat,Nat.mul_one]

/-- The pre-add of single players leaves both sides even. -/
theorem Singles.even_start (h : Singles bracket_id q) (hfree : ∀ team,free team=most) :
    Even most (smallestOfTeams free q bracket_id) (mixedStart free true bracket_id q) := by
  have hones : ∀ team,preFilled free q bracket_id team=smallestOfTeams free q bracket_id := by
    intro team
    have hfaction : ∀ ginfo∈faction q bracket_id team,q.size ginfo=1 :=
      fun ginfo hmem => h.single ginfo (mem_faction hmem).1
    refine filled_ones (fun ginfo hmem => hfaction ginfo (mem_bySize.mp hmem)) ?_
    rw [(bySize_perm q _).length_eq,← sum_ones hfaction]
    exact (smallestOfTeams_le free q bracket_id team).2
  have hcount : ∀ team,(mixedStart free true bracket_id q).count team=
      smallestOfTeams free q bracket_id := by
    intro team
    unfold MixedPoint.count
    rw [(mixedStart_true team).2]
    exact hones team
  constructor
  · intro team
    rw [hcount,(mixedStart_true team).1,hones,hfree]
    omega
  · intro team
    rw [hcount,hcount]
    exact Nat.le_succ _

/-- The fill of single players: the sides are even, and everyone is selected or all places are
taken. -/
theorem Singles.fill (h : Singles bracket_id q) (hfree : ∀ team,free team=most) :
    (∀ team,(mixedAfter free true bracket_id q (mixedGroups q bracket_id)).count team ≤
        (mixedAfter free true bracket_id q (mixedGroups q bracket_id)).count team.other+1) ∧
      ((∀ team,(mixedAfter free true bracket_id q (mixedGroups q bracket_id)).count team=most) ∨
        (q.m_QueuedGroups (bracket_id,BG_QUEUE_MIXED)).length ≤
          (mixedAfter free true bracket_id q (mixedGroups q bracket_id)).count ALLIANCE+
            (mixedAfter free true bracket_id q (mixedGroups q bracket_id)).count HORDE) := by
  have hmem : ∀ ginfo∈mixedGroups q bracket_id,
      ginfo∈q.m_QueuedGroups (bracket_id,BG_QUEUE_MIXED) := fun _ hginfo => mem_bySize.mp hginfo
  have hlive : ∀ ginfo∈mixedGroups q bracket_id,
      ((mixedStart free true bracket_id q).q.heap ginfo).isSome := by
    intro ginfo hginfo
    rw [mixedStart_heap]
    exact live_of_size (h.single ginfo (hmem ginfo hginfo))
  obtain ⟨heven,hsettled⟩ := (h.even_start hfree).run (mixedStart_filled h.nodup true) hfree
    (fun ginfo hginfo => h.single ginfo (hmem ginfo hginfo))
    (fun ginfo hginfo => h.uninvited ginfo (hmem ginfo hginfo)) hlive
  have hfilled := (@mixed_run free q bracket_id true h.nodup (mixedGroups q bracket_id)).1
  refine ⟨heven.balanced,?_⟩
  by_cases hfull : ∀ team,
      (mixedAfter free true bracket_id q (mixedGroups q bracket_id)).count team=most
  · exact Or.inl hfull
  refine Or.inr ?_
  unfold MixedPoint.count mixedAfter
  rw [(hfilled.filled ALLIANCE).count,(hfilled.filled HORDE).count,← List.sum_append,
    ← List.map_append,← sum_ones h.single]
  have hsub : q.m_QueuedGroups (bracket_id,BG_QUEUE_MIXED)⊆
      ((mixedAfter free true bracket_id q (mixedGroups q bracket_id)).q.m_SelectionPools
        ALLIANCE).SelectedGroups++
      ((mixedAfter free true bracket_id q (mixedGroups q bracket_id)).q.m_SelectionPools
        HORDE).SelectedGroups := by
    intro ginfo hginfo
    obtain ⟨team,hteam⟩ := (hsettled ginfo (mem_bySize.mpr hginfo)).resolve_right hfull
    cases team with
    | ALLIANCE => exact List.mem_append_left _ hteam
    | HORDE => exact List.mem_append_right _ hteam
  obtain ⟨listed,hperm,hlisted⟩ := h.nodup.subperm hsub
  rw [← (hperm.map q.size).sum_eq]
  exact (hlisted.map q.size).sum_le_sum fun _ _ => Nat.zero_le _

end

/-- Both pools have enough players, and their sizes differ by at most one. -/
def EnoughEven (minPlayers : ℕ) (q : BattlegroundQueue) : Prop :=
  ∀ team,minPlayers ≤ (q.m_SelectionPools team).PlayerCount ∧
    (q.m_SelectionPools team).PlayerCount ≤ (q.m_SelectionPools team.other).PlayerCount+1

section

variable {world : World} {bracket_id : BattlegroundBracketId} {bg : Battleground}
variable {minPlayers maxPlayers : ℕ} {q : BattlegroundQueue}

theorem CheckCrossFactionMatch_arena (harena : bg.isArena=true) :
    CheckCrossFactionMatch world bracket_id bg minPlayers maxPlayers q=(q,false) := by
  unfold CheckCrossFactionMatch
  rw [if_pos (by simp [harena])]

theorem CheckCrossFactionMatch_filled (hcross : world.crossfaction=true)
    (htesting : world.isTesting=false) (harena : bg.isArena=false) (hmin : minPlayers < 256)
    (hmax : maxPlayers < 256) :
    (CheckCrossFactionMatch world bracket_id bg minPlayers maxPlayers q).1=
        (FillXPlayersToBG world bracket_id bg true minPlayers maxPlayers q).1 ∧
      ((CheckCrossFactionMatch world bracket_id bg minPlayers maxPlayers q).2=true ↔
        ∀ team,minPlayers ≤ ((FillXPlayersToBG world bracket_id bg true minPlayers maxPlayers
          q).1.m_SelectionPools team).PlayerCount) := by
  unfold CheckCrossFactionMatch
  rw [if_neg (by simp [hcross,harena]),Nat.mod_eq_of_lt hmin,Nat.mod_eq_of_lt hmax]
  refine ⟨rfl,?_⟩
  simp only [htesting,Bool.false_and,Bool.false_or,Bool.and_eq_true,decide_eq_true_eq]
  constructor
  · rintro ⟨hali,hhorde⟩ team
    cases team with
    | ALLIANCE => exact hali
    | HORDE => exact hhorde
  · exact fun h => ⟨h ALLIANCE,h HORDE⟩

/-- The gate of a start reads the number of the queued players as a `uint8`. -/
theorem FillXPlayersToBG_start (h : Singles bracket_id q) (hcross : world.crossfaction=true)
    (htesting : world.isTesting=false) :
    if minPlayers*2 ≤ (q.m_QueuedGroups (bracket_id,BG_QUEUE_MIXED)).length%256 then
      (FillXPlayersToBG world bracket_id bg true minPlayers maxPlayers q).2=true
    else FillXPlayersToBG world bracket_id bg true minPlayers maxPlayers q=(q,false) := by
  have hwaiting : ((q.m_QueuedGroups (bracket_id,BG_QUEUE_MIXED)).filter
      fun ginfo => !q.invited ginfo)=q.m_QueuedGroups (bracket_id,BG_QUEUE_MIXED) :=
    List.filter_eq_self.mpr fun ginfo hmem => by rw [h.uninvited ginfo hmem]; rfl
  unfold FillXPlayersToBG
  simp only [hwaiting,sum_ones h.single,hcross,htesting]
  split
  · rename_i hgate
    rw [if_pos (by simp [hgate])]
    rfl
  · rename_i hgate
    rw [if_neg (by simp [hgate])]

/-- With enough single players in the mixed list a cross-faction battleground starts, with enough
players on both sides and at most one more on one of them, exactly where the number of the
players modulo 256 is enough as well, or the pools were filled so before. -/
theorem cross_faction_started_iff (world : World) (bracket_id : BattlegroundBracketId)
    (bg : Battleground) (minPlayers maxPlayers : ℕ) (q : BattlegroundQueue)
    (hcross : world.crossfaction=true) (htesting : world.isTesting=false)
    (hle : minPlayers ≤ maxPlayers) (hmax : maxPlayers < 128) (hsingles : Singles bracket_id q)
    (henough : 2*minPlayers ≤ (q.m_QueuedGroups (bracket_id,BG_QUEUE_MIXED)).length) :
    ((CheckCrossFactionMatch world bracket_id bg minPlayers maxPlayers q).2=true ∧
        EnoughEven minPlayers
          (CheckCrossFactionMatch world bracket_id bg minPlayers maxPlayers q).1) ↔
      bg.isArena=false ∧
        (2*minPlayers ≤ (q.m_QueuedGroups (bracket_id,BG_QUEUE_MIXED)).length%256 ∨
          EnoughEven minPlayers q) := by
  cases harena : bg.isArena with
  | true =>
    rw [CheckCrossFactionMatch_arena harena]
    exact iff_of_false (fun h => Bool.false_ne_true h.1) (fun h => Bool.noConfusion h.1)
  | false =>
    rw [and_iff_right rfl]
    obtain ⟨hfst,hsnd⟩ := @CheckCrossFactionMatch_filled world bracket_id bg minPlayers maxPlayers q
      hcross htesting harena (by omega) (by omega)
    have hand : ((CheckCrossFactionMatch world bracket_id bg minPlayers maxPlayers q).2=true ∧
        EnoughEven minPlayers
          (CheckCrossFactionMatch world bracket_id bg minPlayers maxPlayers q).1) ↔
        EnoughEven minPlayers
          (FillXPlayersToBG world bracket_id bg true minPlayers maxPlayers q).1 := by
      rw [hfst,hsnd]
      exact and_iff_right_of_imp fun h team => (h team).1
    have hgate := @FillXPlayersToBG_start world bracket_id bg minPlayers maxPlayers q hsingles hcross
      htesting
    rw [hand]
    by_cases hcount : minPlayers*2 ≤ (q.m_QueuedGroups (bracket_id,BG_QUEUE_MIXED)).length%256
    · rw [if_pos hcount] at hgate
      refine iff_of_true ?_ (Or.inl (by omega))
      rw [FillXPlayersToBG_eq_run hgate]
      obtain ⟨hbalanced,hall⟩ := @Singles.fill q bracket_id maxPlayers
        (mixedFree bg true maxPlayers) hsingles fun _ => rfl
      intro team
      refine ⟨?_,hbalanced team⟩
      show minPlayers ≤ (mixedAfter (mixedFree bg true maxPlayers) true bracket_id q
        (mixedGroups q bracket_id)).count team
      have hali := hbalanced ALLIANCE
      have hhorde := hbalanced HORDE
      rcases hall with hfull | hall
      · rw [hfull]
        exact hle
      · cases team with
        | ALLIANCE => simp only [Team.other] at hali hhorde; omega
        | HORDE => simp only [Team.other] at hali hhorde; omega
    · rw [if_neg hcount] at hgate
      rw [hgate,or_iff_right (by omega)]

end

/-- A mixed list of single players of both factions. -/
def singlesQueue (players : ℕ) : BattlegroundQueue :=
  { BattlegroundQueue.empty with
    heap := fun ginfo =>
      if ginfo < players then
        some (Join.ginfo { skirmishJoin ginfo with OTeamAlliance := ginfo%2==0 })
      else none
    m_QueuedGroups := fun slot => if slot=(0,BG_QUEUE_MIXED) then List.range players else [] }

theorem singles_singlesQueue (players : ℕ) : Singles 0 (singlesQueue players) := by
  have hinfo : ∀ ginfo∈(singlesQueue players).m_QueuedGroups (0,BG_QUEUE_MIXED),
      (singlesQueue players).info ginfo=
        Join.ginfo { skirmishJoin ginfo with OTeamAlliance := ginfo%2==0 } := by
    intro ginfo hmem
    exact info_eq (if_pos (List.mem_range.mp hmem))
  refine ⟨List.nodup_range,fun ginfo hmem => ?_,fun ginfo hmem => ?_⟩
  · rw [BattlegroundQueue.size,hinfo ginfo hmem]
    rfl
  · rw [BattlegroundQueue.invited,hinfo ginfo hmem]
    rfl

theorem length_singlesQueue (players : ℕ) :
    ((singlesQueue players).m_QueuedGroups (0,BG_QUEUE_MIXED)).length=players :=
  List.length_range

/-- Two players of each faction start a battleground of two against two. -/
theorem cross_faction_started_sample :
    (CheckCrossFactionMatch crossWorld 0 crossBattleground 2 10 (singlesQueue 4)).2=true ∧
      EnoughEven 2
        (CheckCrossFactionMatch crossWorld 0 crossBattleground 2 10 (singlesQueue 4)).1 :=
  (cross_faction_started_iff crossWorld 0 crossBattleground 2 10 (singlesQueue 4) rfl rfl
    (by decide) (by decide) (singles_singlesQueue 4) (by decide)).mpr ⟨rfl,Or.inl (by decide)⟩

/-- Where the gate counts too few of the players, nothing starts. -/
theorem gate_shut {players minPlayers maxPlayers : ℕ} (hgate : players%256 < minPlayers*2)
    (hmin : minPlayers < 256) (hmax : maxPlayers < 256) :
    (CheckCrossFactionMatch crossWorld 0 crossBattleground minPlayers maxPlayers
      (singlesQueue players)).2=false := by
  refine Bool.eq_false_of_not_eq_true fun h => ?_
  have hali := (CheckCrossFactionMatch_filled rfl rfl rfl hmin hmax).2.mp h ALLIANCE
  have hfill := @FillXPlayersToBG_start crossWorld 0 crossBattleground minPlayers maxPlayers
    (singlesQueue players) (singles_singlesQueue players) rfl rfl
  have hempty : ((singlesQueue players).m_SelectionPools ALLIANCE).PlayerCount=0 := rfl
  rw [length_singlesQueue,if_neg (not_le.mpr hgate)] at hfill
  rw [hfill,hempty] at hali
  omega

/-- 256 players are none to the gate, and no battleground of ten against ten starts. -/
theorem cross_faction_start_missed :
    Singles 0 (singlesQueue 256) ∧
      ((singlesQueue 256).m_QueuedGroups (0,BG_QUEUE_MIXED)).length=256 ∧
      (CheckCrossFactionMatch crossWorld 0 crossBattleground 10 10 (singlesQueue 256)).2=false :=
  ⟨singles_singlesQueue 256,length_singlesQueue 256,
    gate_shut (by decide) (by decide) (by decide)⟩

end Projectnelth.BattlegroundQueueModel
