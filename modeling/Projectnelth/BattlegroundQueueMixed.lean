import Mathlib
import Projectnelth.BattlegroundQueuePools
import Projectnelth.BattlegroundQueueRepresentation
import Projectnelth.GreedyFill
import Projectnelth.RunInvariant

/-!
# The fill of a cross-faction battleground

The loops of `FillXPlayersToBG` as runs: the pre-add of a faction is a
largest-first fill, and the balancing loop is a run of one step for each group. What
the loop knows between two groups is a `MixedPoint`.
-/

namespace Projectnelth.BattlegroundQueueModel

open Team BattlegroundQueueGroupTypes BattlegroundQueue GreedyFill RunInvariant

/-- A point of the balancing loop. -/
structure MixedPoint where
  /-- `valiFree` and `vhordeFree`. -/
  vfree : Team → ℤ
  q : BattlegroundQueue

namespace MixedPoint

/-- The loop skips the group. -/
def skips (point : MixedPoint) (ginfo : Ptr) : Bool :=
  point.q.invited ginfo || ginfo∈(point.q.m_SelectionPools ALLIANCE).SelectedGroups ||
    ginfo∈(point.q.m_SelectionPools HORDE).SelectedGroups ||
    (point.vfree ALLIANCE==0 && point.vfree HORDE==0)

/-- The queue with the team that the loop gives to the group. -/
def sided (point : MixedPoint) (ginfo : Ptr) : BattlegroundQueue :=
  if 0 < (point.vfree ALLIANCE-point.vfree HORDE).natAbs then
    point.q.modify ginfo fun g =>
      { g with Team := if point.vfree ALLIANCE < point.vfree HORDE then HORDE else ALLIANCE }
  else point.q

/-- The side that the group goes to. -/
def side (point : MixedPoint) (ginfo : Ptr) : Team := ((point.sided ginfo).info ginfo).Team

/-- The players of the groups that are selected for a team. -/
def selectedFor (point : MixedPoint) (team : Team) : ℕ :=
  ((point.q.m_SelectionPools team).SelectedGroups.map point.q.size).sum

end MixedPoint

/-- The pools and the verdict of `AddGroup` in a round. -/
def MixedPoint.added (free : Team → ℕ) (point : MixedPoint) (ginfo : Ptr) : Pools×Bool :=
  addTo (point.sided ginfo) (point.sided ginfo).m_SelectionPools (point.side ginfo) ginfo
    (free (point.side ginfo))

/-- One round of the balancing loop. -/
def mixedStep (free : Team → ℕ) (point : MixedPoint) (ginfo : Ptr) : MixedPoint :=
  if point.skips ginfo then point
  else
    let team := point.side ginfo
    let added := point.added free ginfo
    ⟨if added.2 then Function.update point.vfree team (point.vfree team-point.q.size ginfo)
      else point.vfree,{ point.sided ginfo with m_SelectionPools := added.1 }⟩

/-- A round of `fillMixed`. -/
theorem fillMixed_cons (free : Team → ℕ) (point : MixedPoint) (ginfo : Ptr) (rest : List Ptr) :
    fillMixed free (ginfo::rest) (point.vfree ALLIANCE) (point.vfree HORDE) point.q=
      if point.skips ginfo then
        fillMixed free rest (point.vfree ALLIANCE) (point.vfree HORDE) point.q
      else
        let added := point.added free ginfo
        let next := { point.sided ginfo with m_SelectionPools := added.1 }
        if added.2 then
          if point.side ginfo=ALLIANCE then
            fillMixed free rest (point.vfree ALLIANCE-point.q.size ginfo) (point.vfree HORDE) next
          else fillMixed free rest (point.vfree ALLIANCE) (point.vfree HORDE-point.q.size ginfo) next
        else fillMixed free rest (point.vfree ALLIANCE) (point.vfree HORDE) next :=
  rfl

/-- The balancing loop runs the step over its groups. -/
theorem fillMixed_eq_run (free : Team → ℕ) (groups : List Ptr) (point : MixedPoint) :
    fillMixed free groups (point.vfree ALLIANCE) (point.vfree HORDE) point.q=
      (run (mixedStep free) point groups).q := by
  induction groups generalizing point with
  | nil => rfl
  | cons ginfo rest ih =>
    rw [fillMixed_cons,run,← ih]
    unfold mixedStep
    by_cases hskip : point.skips ginfo=true
    · rw [if_pos hskip,if_pos hskip]
    rw [if_neg hskip,if_neg hskip]
    dsimp only
    by_cases hadded : (point.added free ginfo).2=true
    · rw [if_pos hadded,if_pos hadded]
      cases hteam : point.side ginfo with
      | ALLIANCE =>
        rw [if_pos rfl,Function.update_self,Function.update_of_ne (by simp)]
      | HORDE =>
        rw [if_neg (by simp),Function.update_self,Function.update_of_ne (by simp)]
    · rw [if_neg hadded,if_neg hadded]

section

variable {free : Team → ℕ} {size : Ptr → ℕ} {invited : Ptr → Bool}
variable {point : MixedPoint} {ginfo : Ptr}

/-- The team of a group matters to neither its size nor its invitation. -/
theorem sided_size (point : MixedPoint) (ginfo : Ptr) : (point.sided ginfo).size=point.q.size := by
  unfold MixedPoint.sided
  split
  · funext other
    unfold BattlegroundQueue.size
    rw [modify_info]
    split
    · rfl
    · rfl
  · rfl

theorem sided_invited (point : MixedPoint) (ginfo : Ptr) :
    (point.sided ginfo).invited=point.q.invited := by
  unfold MixedPoint.sided
  split
  · funext other
    unfold BattlegroundQueue.invited
    rw [modify_info]
    split
    · rfl
    · rfl
  · rfl

theorem sided_pools (point : MixedPoint) (ginfo : Ptr) :
    (point.sided ginfo).m_SelectionPools=point.q.m_SelectionPools := by
  unfold MixedPoint.sided
  split
  · rfl
  · rfl

/-- Every group stays allocated. -/
theorem sided_live (point : MixedPoint) (ginfo other : Ptr) :
    ((point.sided ginfo).heap other).isSome=(point.q.heap other).isSome := by
  unfold MixedPoint.sided
  split
  · rw [modify_heap]
    split
    · exact Option.isSome_map
    · rfl
  · rfl

theorem mixedStep_live (free : Team → ℕ) (point : MixedPoint) (ginfo other : Ptr) :
    ((mixedStep free point ginfo).q.heap other).isSome=(point.q.heap other).isSome := by
  unfold mixedStep
  split
  · rfl
  · exact sided_live point ginfo other

/-- A group goes to the side with more places counted as free. -/
theorem side_of_lt {team : Team} (hlive : (point.q.heap ginfo).isSome)
    (h : point.vfree team.other < point.vfree team) : point.side ginfo=team := by
  unfold MixedPoint.side MixedPoint.sided
  cases team with
  | ALLIANCE =>
    have h : point.vfree HORDE < point.vfree ALLIANCE := h
    rw [if_pos (by omega),modify_info,if_pos ⟨rfl,hlive⟩]
    exact if_neg (by omega)
  | HORDE =>
    have h : point.vfree ALLIANCE < point.vfree HORDE := h
    rw [if_pos (by omega),modify_info,if_pos ⟨rfl,hlive⟩]
    exact if_pos h

/-- The pools at a point of the loop. -/
structure MixedFilled (size : Ptr → ℕ) (invited : Ptr → Bool) (free : Team → ℕ)
    (point : MixedPoint) : Prop where
  /-- The sizes of the groups are those from before the loop. -/
  sizes : point.q.size=size
  /-- So are the invitations. -/
  invitations : point.q.invited=invited
  /-- Both pools are right. -/
  filled : ∀ team,Filled size invited (free team) (point.q.m_SelectionPools team)
  disjoint : ∀ ginfo∈(point.q.m_SelectionPools ALLIANCE).SelectedGroups,
    ginfo∉(point.q.m_SelectionPools HORDE).SelectedGroups

/-- A group that is not skipped is uninvited, new and finds a place counted as free. -/
theorem not_skips_iff :
    point.skips ginfo=false ↔
      point.q.invited ginfo=false ∧
        (∀ team,ginfo∉(point.q.m_SelectionPools team).SelectedGroups) ∧
        ¬(point.vfree ALLIANCE=0 ∧ point.vfree HORDE=0) := by
  unfold MixedPoint.skips
  simp only [Bool.or_eq_false_iff,decide_eq_false_iff_not,Bool.and_eq_false_iff,beq_eq_false_iff_ne]
  constructor
  · rintro ⟨⟨⟨hinvited,hali⟩,hhorde⟩,hfree⟩
    refine ⟨hinvited,fun team => ?_,fun h => ?_⟩
    · cases team with
      | HORDE => exact hhorde
      | ALLIANCE => exact hali
    · exact hfree.elim (fun hne => hne h.1) (fun hne => hne h.2)
  · rintro ⟨hinvited,hnew,hfree⟩
    exact ⟨⟨⟨hinvited,hnew ALLIANCE⟩,hnew HORDE⟩,not_and_or.mp hfree⟩

/-- A round for a skipped group. -/
theorem mixedStep_of_skips (h : point.skips ginfo=true) : mixedStep free point ginfo=point := by
  unfold mixedStep
  rw [if_pos h]

theorem mixedStep_pools (h : point.skips ginfo=false) (team : Team) :
    (mixedStep free point ginfo).q.m_SelectionPools team=
      if team=point.side ginfo then
        ((point.q.m_SelectionPools team).AddGroup (point.sided ginfo) ginfo (free team)).1
      else point.q.m_SelectionPools team := by
  unfold mixedStep
  rw [if_neg (by simp [h])]
  show Function.update (point.sided ginfo).m_SelectionPools (point.side ginfo) _ team=_
  rw [sided_pools]
  split
  · rename_i hteam
    subst hteam
    rw [Function.update_self]
  · rename_i hteam
    rw [Function.update_of_ne hteam]

/-- The virtual free places after a round: what `AddGroup` returns decides. -/
theorem mixedStep_vfree (h : point.skips ginfo=false) (team : Team) :
    (mixedStep free point ginfo).vfree team=
      if team=point.side ginfo ∧ ((point.q.m_SelectionPools team).AddGroup (point.sided ginfo) ginfo
          (free team)).2=true then point.vfree team-point.q.size ginfo
      else point.vfree team := by
  have hadded : (point.added free ginfo).2=((point.q.m_SelectionPools (point.side ginfo)).AddGroup
      (point.sided ginfo) ginfo (free (point.side ginfo))).2 := by
    unfold MixedPoint.added addTo
    rw [sided_pools]
  unfold mixedStep
  rw [if_neg (by simp [h])]
  dsimp only
  rw [hadded]
  by_cases hteam : team=point.side ginfo
  · subst hteam
    split
    · rename_i htrue
      rw [Function.update_self,if_pos ⟨rfl,htrue⟩]
    · rename_i hfalse
      rw [if_neg fun hand => hfalse hand.2]
  · have hsame : (if (((point.q.m_SelectionPools (point.side ginfo)).AddGroup (point.sided ginfo)
          ginfo (free (point.side ginfo))).2=true) then
        Function.update point.vfree (point.side ginfo)
          (point.vfree (point.side ginfo)-point.q.size ginfo)
        else point.vfree) team=point.vfree team := by
      split
      · rw [Function.update_of_ne hteam]
      · rfl
    rw [hsame,if_neg fun hand => hteam hand.1]

theorem mixedStep_size (h : point.skips ginfo=false) :
    (mixedStep free point ginfo).q.size=point.q.size := by
  unfold mixedStep
  rw [if_neg (by simp [h])]
  exact sided_size point ginfo

theorem mixedStep_invited (h : point.skips ginfo=false) :
    (mixedStep free point ginfo).q.invited=point.q.invited := by
  unfold mixedStep
  rw [if_neg (by simp [h])]
  exact sided_invited point ginfo

/-- Every round keeps the pools right. -/
theorem MixedFilled.step (h : MixedFilled size invited free point) (ginfo : Ptr) :
    MixedFilled size invited free (mixedStep free point ginfo) := by
  cases hskip : point.skips ginfo with
  | true =>
    rw [mixedStep_of_skips hskip]
    exact h
  | false =>
    obtain ⟨hinvited,hnew,-⟩ := not_skips_iff.mp hskip
    refine ⟨(mixedStep_size hskip).trans h.sizes,(mixedStep_invited hskip).trans h.invitations,?_,?_⟩
    · intro team
      rw [mixedStep_pools hskip]
      split
      · have hfilled := h.filled team
        rw [← h.sizes,← h.invitations,← sided_size point ginfo,← sided_invited point ginfo] at hfilled ⊢
        exact hfilled.addGroup le_rfl (hnew team)
      · exact h.filled team
    · intro other
      rw [mixedStep_pools hskip,mixedStep_pools hskip]
      cases point.side ginfo with
      | ALLIANCE =>
        rw [if_pos rfl,if_neg (by simp)]
        intro hali hhorde
        rcases mem_addGroup hali with hali | rfl
        · exact h.disjoint other hali hhorde
        · exact hnew HORDE hhorde
      | HORDE =>
        rw [if_neg (by simp),if_pos rfl]
        intro hali hhorde
        rcases mem_addGroup hhorde with hhorde | rfl
        · exact h.disjoint other hali hhorde
        · exact hnew ALLIANCE hali

end

/-- The places that the function fills. -/
def mixedFree (bg : Battleground) (start : Bool) (maxPlayers : ℕ) : Team → ℕ := fun team =>
  if start then maxPlayers else bg.GetFreeSlotsForTeam team

/-- The uninvited groups of the mixed list that started out in a team. -/
def faction (q : BattlegroundQueue) (bracket_id : BattlegroundBracketId) : Team → List Ptr
  | ALLIANCE =>
    ((q.m_QueuedGroups (bracket_id,BG_QUEUE_MIXED)).filter fun ginfo => !q.invited ginfo).filter
      fun ginfo => (q.info ginfo).OTeamAlliance
  | HORDE =>
    ((q.m_QueuedGroups (bracket_id,BG_QUEUE_MIXED)).filter fun ginfo => !q.invited ginfo).filter
      fun ginfo => !(q.info ginfo).OTeamAlliance

/-- `m_SmallestOfTeams`. -/
def smallestOfTeams (free : Team → ℕ) (q : BattlegroundQueue)
    (bracket_id : BattlegroundBracketId) : ℕ :=
  min (min (free ALLIANCE) ((faction q bracket_id ALLIANCE).map q.size).sum)
    (min (free HORDE) ((faction q bracket_id HORDE).map q.size).sum)

/-- The point of the balancing loop after the pre-add. -/
def mixedStart (free : Team → ℕ) (start : Bool) (bracket_id : BattlegroundBracketId)
    (q : BattlegroundQueue) : MixedPoint :=
  if start then
    let smallest : ℤ := smallestOfTeams free q bracket_id
    let ali :=
      PreAddPlayers q (faction q bracket_id ALLIANCE) smallest (free ALLIANCE)
        fun _ => SelectionPool.Init
    let both := PreAddPlayers q (faction q bracket_id HORDE) smallest (free HORDE) ali.2
    ⟨fun | ALLIANCE => free ALLIANCE-ali.1 | HORDE => free HORDE-both.1,
      { q with m_SelectionPools := both.2 }⟩
  else ⟨fun team => free team,{ q with m_SelectionPools := fun _ => SelectionPool.Init }⟩

/-- `FillXPlayersToBG` is a run of the balancing loop from there. -/
theorem FillXPlayersToBG_eq_run {world : World} {bracket_id : BattlegroundBracketId}
    {bg : Battleground} {start : Bool} {minPlayers maxPlayers : ℕ} {q : BattlegroundQueue}
    (h : (FillXPlayersToBG world bracket_id bg start minPlayers maxPlayers q).2=true) :
    (FillXPlayersToBG world bracket_id bg start minPlayers maxPlayers q).1=
      (run (mixedStep (mixedFree bg start maxPlayers))
        (mixedStart (mixedFree bg start maxPlayers) start bracket_id q)
        (bySize q (q.m_QueuedGroups (bracket_id,BG_QUEUE_MIXED)))).q := by
  rw [← fillMixed_eq_run]
  unfold FillXPlayersToBG at h ⊢
  dsimp only at h ⊢
  split at h
  · rename_i hgate
    rw [if_pos hgate]
    cases start with
    | true => rfl
    | false => rfl
  · cases h

section PreAdd

variable {q : BattlegroundQueue} {bracket_id : BattlegroundBracketId} {free : Team → ℕ}

theorem preAdd_eq {MaxInTeam left : ℕ} {groups : List Ptr} {pools : Pools} {team : Team}
    (hteam : ∀ ginfo∈groups,(if (q.info ginfo).OTeamAlliance then ALLIANCE else HORDE)=team)
    (hinvited : ∀ ginfo∈groups,q.invited ginfo=false)
    (hroom : (pools team).PlayerCount+left ≤ MaxInTeam) :
    preAdd q MaxInTeam groups left pools=
      ((left : ℤ)-filled q.size left groups,
        Function.update pools team
          ⟨(pools team).SelectedGroups++fill q.size left groups,
            (pools team).PlayerCount+filled q.size left groups⟩) := by
  induction groups generalizing left pools with
  | nil => simp [preAdd,fill,filled]
  | cons ginfo rest ih =>
    have hrest : ∀ other∈rest,
        (if (q.info other).OTeamAlliance then ALLIANCE else HORDE)=team :=
      fun other hother => hteam other (List.mem_cons_of_mem ginfo hother)
    have hfree : ∀ other∈rest,q.invited other=false :=
      fun other hother => hinvited other (List.mem_cons_of_mem ginfo hother)
    rw [preAdd]
    unfold filled fill
    by_cases hsize : q.size ginfo ≤ left
    · have hadd : (pools team).PlayerCount+q.size ginfo ≤ MaxInTeam := by omega
      rw [if_pos (by exact_mod_cast hsize),if_pos hsize,hteam ginfo List.mem_cons_self]
      dsimp only [addTo]
      rw [AddGroup_of_fits (hinvited ginfo List.mem_cons_self) hadd]
      dsimp only
      rw [if_pos rfl,← Int.ofNat_sub hsize,ih hrest hfree]
      · rw [Function.update_idem,Function.update_self]
        simp only [filled,List.map_cons,List.sum_cons,List.append_assoc,List.singleton_append,
          Nat.add_assoc,Prod.mk.injEq,and_true]
        push_cast [Int.ofNat_sub hsize]
        omega
      · rw [Function.update_self]
        show (pools team).PlayerCount+q.size ginfo+(left-q.size ginfo) ≤ MaxInTeam
        omega
    · rw [if_neg (by exact_mod_cast hsize),if_neg hsize]
      exact ih hrest hfree hroom

theorem bySize_perm (q : BattlegroundQueue) (groups : List Ptr) :
    (bySize q groups).Perm groups := by
  unfold bySize
  refine (List.reverse_perm _).trans ((StableMultimap.insertAll_perm _ _ _).trans ?_)
  rw [List.append_nil]

theorem mem_faction {team : Team} {ginfo : Ptr} (h : ginfo∈faction q bracket_id team) :
    ginfo∈q.m_QueuedGroups (bracket_id,BG_QUEUE_MIXED) ∧ q.invited ginfo=false ∧
      (if (q.info ginfo).OTeamAlliance then ALLIANCE else HORDE)=team := by
  cases team with
  | ALLIANCE =>
    unfold faction at h
    simp only [List.mem_filter,Bool.not_eq_true'] at h
    exact ⟨h.1.1,h.1.2,if_pos h.2⟩
  | HORDE =>
    unfold faction at h
    simp only [List.mem_filter,Bool.not_eq_true'] at h
    exact ⟨h.1.1,h.1.2,if_neg (by simp [h.2])⟩

theorem faction_sublist (q : BattlegroundQueue) (bracket_id : BattlegroundBracketId) (team : Team) :
    (faction q bracket_id team).Sublist (q.m_QueuedGroups (bracket_id,BG_QUEUE_MIXED)) := by
  cases team with
  | ALLIANCE => exact List.filter_sublist.trans List.filter_sublist
  | HORDE => exact List.filter_sublist.trans List.filter_sublist

theorem smallestOfTeams_le (free : Team → ℕ) (q : BattlegroundQueue)
    (bracket_id : BattlegroundBracketId) (team : Team) :
    smallestOfTeams free q bracket_id ≤ free team ∧
      smallestOfTeams free q bracket_id ≤ ((faction q bracket_id team).map q.size).sum := by
  unfold smallestOfTeams
  cases team with
  | ALLIANCE => constructor <;> omega
  | HORDE => constructor <;> omega

/-- What a team has at the start of the balancing loop. -/
def preFilled (free : Team → ℕ) (q : BattlegroundQueue) (bracket_id : BattlegroundBracketId)
    (team : Team) : ℕ :=
  filled q.size (smallestOfTeams free q bracket_id) (bySize q (faction q bracket_id team))

theorem PreAddPlayers_faction {team : Team} {pools : Pools}
    (hpool : pools team=SelectionPool.Init) :
    PreAddPlayers q (faction q bracket_id team) (smallestOfTeams free q bracket_id) (free team)
        pools=
      ((smallestOfTeams free q bracket_id : ℤ)-preFilled free q bracket_id team,
        Function.update pools team
          ⟨fill q.size (smallestOfTeams free q bracket_id) (bySize q (faction q bracket_id team)),
            preFilled free q bracket_id team⟩) := by
  unfold PreAddPlayers
  rw [preAdd_eq (fun ginfo hmem => (mem_faction (mem_bySize.mp hmem)).2.2)
    (fun ginfo hmem => (mem_faction (mem_bySize.mp hmem)).2.1)]
  · rw [hpool]
    simp [SelectionPool.Init,preFilled]
  rw [hpool]
  show 0+_ ≤ _
  rw [Nat.zero_add]
  exact (smallestOfTeams_le free q bracket_id team).1

/-- Both teams are pre-added up to the smallest number; what is left over is
taken off the free places. -/
theorem mixedStart_true (team : Team) :
    (mixedStart free true bracket_id q).vfree team=
        free team-((smallestOfTeams free q bracket_id : ℤ)-preFilled free q bracket_id team) ∧
      (mixedStart free true bracket_id q).q.m_SelectionPools team=
        ⟨fill q.size (smallestOfTeams free q bracket_id) (bySize q (faction q bracket_id team)),
          preFilled free q bracket_id team⟩ := by
  unfold mixedStart
  rw [if_pos rfl]
  dsimp only
  rw [@PreAddPlayers_faction q bracket_id free ALLIANCE (fun _ => SelectionPool.Init) rfl]
  dsimp only
  rw [@PreAddPlayers_faction q bracket_id free HORDE _ (by rw [Function.update_of_ne (by simp)])]
  dsimp only
  cases team with
  | ALLIANCE => exact ⟨rfl,by rw [Function.update_of_ne (by simp),Function.update_self]⟩
  | HORDE => exact ⟨rfl,by rw [Function.update_self]⟩

/-- The groups and their fields are untouched. -/
theorem mixedStart_heap (free : Team → ℕ) (start : Bool) :
    (mixedStart free start bracket_id q).q.heap=q.heap := by
  unfold mixedStart
  split
  · rfl
  · rfl

/-- The pools are right at the start of the balancing loop. -/
theorem mixedStart_filled (hnodup : (q.m_QueuedGroups (bracket_id,BG_QUEUE_MIXED)).Nodup)
    (start : Bool) : MixedFilled q.size q.invited free (mixedStart free start bracket_id q) := by
  have hheap := @mixedStart_heap q bracket_id free start
  have hsize : (mixedStart free start bracket_id q).q.size=q.size := by
    funext ginfo
    rw [BattlegroundQueue.size,BattlegroundQueue.info,hheap]
    rfl
  have hinvited : (mixedStart free start bracket_id q).q.invited=q.invited := by
    funext ginfo
    rw [BattlegroundQueue.invited,BattlegroundQueue.info,hheap]
    rfl
  cases start with
  | false => exact ⟨hsize,hinvited,fun team => Filled.init,fun _ h => absurd h List.not_mem_nil⟩
  | true =>
    have hsub : ∀ team,(fill q.size (smallestOfTeams free q bracket_id)
        (bySize q (faction q bracket_id team))).Sublist (bySize q (faction q bracket_id team)) :=
      fun team => fill_sublist _ _ _
    have hmem : ∀ team,∀ ginfo∈((mixedStart free true bracket_id q).q.m_SelectionPools
        team).SelectedGroups,ginfo∈faction q bracket_id team := by
      intro team ginfo hginfo
      rw [(mixedStart_true team).2] at hginfo
      exact mem_bySize.mp ((hsub team).subset hginfo)
    refine ⟨hsize,hinvited,fun team => ?_,fun ginfo hali hhorde => ?_⟩
    · refine ⟨?_,?_,?_,fun ginfo hginfo => (mem_faction (hmem team ginfo hginfo)).2.1⟩
      · rw [(mixedStart_true team).2]
        rfl
      · rw [(mixedStart_true team).2]
        exact (filled_le _ _ _).trans (smallestOfTeams_le free q bracket_id team).1
      · rw [(mixedStart_true team).2]
        refine (hsub team).nodup ((bySize_perm q _).nodup_iff.mpr ?_)
        exact (faction_sublist q bracket_id team).nodup hnodup
    · have hal := (mem_faction (hmem ALLIANCE ginfo hali)).2.2
      rw [(mem_faction (hmem HORDE ginfo hhorde)).2.2] at hal
      cases hal

end PreAdd

end Projectnelth.BattlegroundQueueModel
