import Mathlib
import Projectnelth.BattlegroundQueueMixed

/-!
# The books of the cross-faction fill

`valiFree` and `vhordeFree` should be the places that are really free. The pre-add
subtracts what it left over instead of what it added, and a round subtracts a group
that `AddGroup` did not add when a place is left on its side. The books are right where
neither shows: the pre-add took half of what it might, and every group fits its side or
finds it full.
-/

namespace Projectnelth.BattlegroundQueueModel

open Team BattlegroundQueueGroupTypes BattlegroundQueue GreedyFill RunInvariant

/-- The virtual free places are those that the selected players leave. -/
def Books (free : Team → ℕ) (point : MixedPoint) : Prop :=
  ∀ team,point.vfree team=free team-point.selectedFor team

/-- The group is skipped, or its side has places for all of its players or for none. -/
def Whole (free : Team → ℕ) (point : MixedPoint) (ginfo : Ptr) : Prop :=
  point.skips ginfo=true ∨
    point.selectedFor (point.side ginfo)+point.q.size ginfo ≤ free (point.side ginfo) ∨
    free (point.side ginfo) ≤ point.selectedFor (point.side ginfo)

instance (free : Team → ℕ) (point : MixedPoint) (ginfo : Ptr) :
    Decidable (Whole free point ginfo) :=
  inferInstanceAs (Decidable (_ ∨ _ ∨ _))

section

variable {free : Team → ℕ} {size : Ptr → ℕ} {invited : Ptr → Bool}
variable {point : MixedPoint} {ginfo : Ptr}

/-- `PlayerCount` counts the selected players. -/
theorem MixedFilled.selectedFor_eq (h : MixedFilled size invited free point) (team : Team) :
    point.selectedFor team=(point.q.m_SelectionPools team).PlayerCount := by
  unfold MixedPoint.selectedFor
  rw [(h.filled team).count,h.sizes]

/-- A side that has places, but not for the whole group, spoils the books; nothing else does. -/
theorem books_step_iff (h : MixedFilled size invited free point) (hbooks : Books free point) :
    Books free (mixedStep free point ginfo) ↔ Whole free point ginfo := by
  unfold Whole
  cases hskip : point.skips ginfo with
  | true =>
    rw [mixedStep_of_skips hskip]
    exact iff_of_true hbooks (Or.inl rfl)
  | false =>
    have hnext := h.step ginfo
    have hinvited : (point.sided ginfo).invited ginfo=false := by
      rw [sided_invited]
      exact (not_skips_iff.mp hskip).1
    have hsize := congrFun (sided_size point ginfo) ginfo
    have hother : ∀ team,team≠point.side ginfo →
        (mixedStep free point ginfo).vfree team=
          free team-(mixedStep free point ginfo).selectedFor team := by
      intro team hteam
      rw [hnext.selectedFor_eq,mixedStep_pools hskip,if_neg hteam,← h.selectedFor_eq,
        mixedStep_vfree hskip,if_neg fun hand => hteam hand.1]
      exact hbooks team
    have hself : Books free (mixedStep free point ginfo) ↔
        (mixedStep free point ginfo).vfree (point.side ginfo)=
          free (point.side ginfo)-(mixedStep free point ginfo).selectedFor (point.side ginfo) := by
      refine ⟨fun hall => hall _,fun hside team => ?_⟩
      by_cases hteam : team=point.side ginfo
      · rw [hteam]
        exact hside
      · exact hother team hteam
    rw [hself,or_iff_right (by simp),hnext.selectedFor_eq,mixedStep_pools hskip,if_pos rfl,
      mixedStep_vfree hskip,hbooks,h.selectedFor_eq]
    by_cases hfits : (point.q.m_SelectionPools (point.side ginfo)).PlayerCount+
        (point.sided ginfo).size ginfo ≤ free (point.side ginfo)
    · rw [AddGroup_of_fits hinvited hfits,if_pos ⟨rfl,rfl⟩]
      dsimp only
      omega
    · rw [AddGroup_of_not_fits (Or.inr (not_le.mp hfits))]
      by_cases hplace : (point.q.m_SelectionPools (point.side ginfo)).PlayerCount<
          free (point.side ginfo)
      · rw [if_pos ⟨rfl,decide_eq_true hplace⟩]
        dsimp only
        omega
      · rw [if_neg fun hand => hplace (of_decide_eq_true hand.2)]
        dsimp only
        omega

/-- The pools of every point are right, and no group is lost. -/
theorem mixed_run {q : BattlegroundQueue} {bracket_id : BattlegroundBracketId} (start : Bool)
    (hnodup : (q.m_QueuedGroups (bracket_id,BG_QUEUE_MIXED)).Nodup) (processed : List Ptr) :
    MixedFilled q.size q.invited free
        (run (mixedStep free) (mixedStart free start bracket_id q) processed) ∧
      ∀ ginfo,((run (mixedStep free) (mixedStart free start bracket_id q)
        processed).q.heap ginfo).isSome=(q.heap ginfo).isSome := by
  constructor
  · exact run_invariant_always (fun _ ginfo h => h.step ginfo) (mixedStart_filled hnodup start)
      processed
  refine run_invariant_always
    (I := fun point : MixedPoint => ∀ ginfo,(point.q.heap ginfo).isSome=(q.heap ginfo).isSome)
    (fun point ginfo h other => ?_) (fun ginfo => ?_) processed
  · exact (mixedStep_live free point ginfo other).trans (h other)
  · rw [mixedStart_heap]

/-- The books after the pre-add: it took half of what it might. -/
theorem books_mixedStart {q : BattlegroundQueue} {bracket_id : BattlegroundBracketId}
    {start : Bool} :
    Books free (mixedStart free start bracket_id q) ↔
      (start=true → ∀ team,
        2*preFilled free q bracket_id team=smallestOfTeams free q bracket_id) := by
  unfold Books
  cases start with
  | false =>
    refine iff_of_true (fun team => ?_) (by rintro ⟨⟩)
    show (free team : ℤ)=free team-((0 : ℕ) : ℤ)
    omega
  | true =>
    have hselected : ∀ team,(mixedStart free true bracket_id q).selectedFor team=
        preFilled free q bracket_id team := by
      intro team
      unfold MixedPoint.selectedFor
      rw [(mixedStart_true team).2]
      have hsize : (mixedStart free true bracket_id q).q.size=q.size := by
        funext ginfo
        rw [BattlegroundQueue.size,BattlegroundQueue.info,mixedStart_heap]
        rfl
      rw [hsize]
      rfl
    constructor
    · intro h _ team
      have := h team
      rw [(mixedStart_true team).1,hselected] at this
      omega
    · intro h team
      have := h rfl team
      rw [(mixedStart_true team).1,hselected]
      omega

end

/-- The groups of the balancing loop, in its order. -/
def mixedGroups (q : BattlegroundQueue) (bracket_id : BattlegroundBracketId) : List Ptr :=
  bySize q (q.m_QueuedGroups (bracket_id,BG_QUEUE_MIXED))

/-- The point of the balancing loop behind the groups. -/
def mixedAfter (free : Team → ℕ) (start : Bool) (bracket_id : BattlegroundBracketId)
    (q : BattlegroundQueue) (processed : List Ptr) : MixedPoint :=
  run (mixedStep free) (mixedStart free start bracket_id q) processed

/-- The books of a fill that ends with the queue `filled`. -/
structure KeepsBooks (free : Team → ℕ) (start : Bool) (bracket_id : BattlegroundBracketId)
    (q filled : BattlegroundQueue) : Prop where
  /-- They are right after the pre-add and after each group. -/
  books : ∀ processed,processed <+: mixedGroups q bracket_id →
    Books free (mixedAfter free start bracket_id q processed)
  /-- Each further group is put on the side that really has more free places. -/
  side : ∀ processed ginfo,processed++[ginfo] <+: mixedGroups q bracket_id →
    (mixedAfter free start bracket_id q processed).skips ginfo=false →
      ∀ team,
        (free team.other : ℤ)-
            (mixedAfter free start bracket_id q processed).selectedFor team.other<
          free team-(mixedAfter free start bracket_id q processed).selectedFor team →
        (mixedAfter free start bracket_id q processed).side ginfo=team
  once : ((filled.m_SelectionPools ALLIANCE).SelectedGroups++
    (filled.m_SelectionPools HORDE).SelectedGroups).Nodup
  /-- No side has more players than free places. -/
  within : ∀ team,((filled.m_SelectionPools team).SelectedGroups.map q.size).sum ≤ free team

/-- The fill keeps its books exactly where the pre-add took half of what it might and every group
fits its side or finds it full. -/
theorem cross_faction_books_iff (world : World) (bracket_id : BattlegroundBracketId)
    (bg : Battleground) (start : Bool) (minPlayers maxPlayers : ℕ) (q : BattlegroundQueue)
    (hnodup : (q.m_QueuedGroups (bracket_id,BG_QUEUE_MIXED)).Nodup)
    (hlive : ∀ ginfo∈q.m_QueuedGroups (bracket_id,BG_QUEUE_MIXED),(q.heap ginfo).isSome)
    (henter : (FillXPlayersToBG world bracket_id bg start minPlayers maxPlayers q).2=true) :
    KeepsBooks (mixedFree bg start maxPlayers) start bracket_id q
        (FillXPlayersToBG world bracket_id bg start minPlayers maxPlayers q).1 ↔
      (start=true → ∀ team,
          2*preFilled (mixedFree bg start maxPlayers) q bracket_id team=
            smallestOfTeams (mixedFree bg start maxPlayers) q bracket_id) ∧
        Meets (mixedStep (mixedFree bg start maxPlayers)) (Whole (mixedFree bg start maxPlayers))
          (mixedStart (mixedFree bg start maxPlayers) start bracket_id q)
          (mixedGroups q bracket_id) := by
  rw [FillXPlayersToBG_eq_run henter]
  generalize mixedFree bg start maxPlayers=free
  have hbooks : (∀ processed,processed <+: mixedGroups q bracket_id →
      Books free (mixedAfter free start bracket_id q processed)) ↔
        (start=true → ∀ team,
          2*preFilled free q bracket_id team=smallestOfTeams free q bracket_id) ∧
        Meets (mixedStep free) (Whole free) (mixedStart free start bracket_id q)
          (mixedGroups q bracket_id) := by
    unfold mixedAfter
    rw [prefixes_iff_meets,books_mixedStart]
    refine and_congr_right fun hstart => ?_
    refine meets_iff (I := fun point => MixedFilled q.size q.invited free point ∧ Books free point)
      (fun point ginfo h => books_step_iff h.1 h.2) (fun point ginfo h hnext => ?_)
      ⟨mixedStart_filled hnodup start,books_mixedStart.mpr hstart⟩
    exact ⟨h.1.step ginfo,hnext⟩
  rw [← hbooks]
  have hrun := @mixed_run free q bracket_id start hnodup
  have hfilled := (hrun (mixedGroups q bracket_id)).1
  refine ⟨KeepsBooks.books,fun h => ⟨h,?_,?_,fun team => ?_⟩⟩
  · intro processed ginfo hpre _ team hlt
    have hprocessed := h processed ((List.prefix_append processed [ginfo]).trans hpre)
    have hmem : ginfo∈mixedGroups q bracket_id := hpre.subset (by simp)
    have hginfo := ((hrun processed).2 ginfo).trans (hlive ginfo (mem_bySize.mp hmem))
    refine side_of_lt hginfo ?_
    rw [hprocessed,hprocessed]
    exact hlt
  · refine List.nodup_append.mpr ⟨(hfilled.filled ALLIANCE).nodup,(hfilled.filled HORDE).nodup,?_⟩
    rintro ginfo hali other hhorde rfl
    exact hfilled.disjoint ginfo hali hhorde
  · have hcount := (hfilled.filled team).count
    exact hcount.symm.le.trans (hfilled.filled team).le

/-- A server with cross-faction battlegrounds. -/
def crossWorld : World := { skirmishWorld with crossfaction := true }

/-- A battleground with two free places for the alliance and one for the horde. -/
def crossBattleground : Battleground :=
  { skirmishArena 0 with
    isArena := false
    GetFreeSlotsForTeam := fun | ALLIANCE => 2 | HORDE => 1 }

/-- A mixed list of the groups, where group `n` has `n` players and the even ones
started out as horde. -/
def mixedQueue (groups : List Ptr) : BattlegroundQueue :=
  { BattlegroundQueue.empty with
    heap := fun ginfo =>
      if ginfo∈groups then
        some (Join.ginfo { skirmishJoin 0 with
          grp := some (List.range' (100*ginfo) ginfo)
          OTeamAlliance := ginfo%2==1 })
      else none
    m_QueuedGroups := fun slot => if slot=(0,BG_QUEUE_MIXED) then groups else [] }

/-- The group of two goes to the alliance, which has two places, the other one to the horde. -/
theorem cross_faction_books_sample :
    KeepsBooks (mixedFree crossBattleground false 0) false 0 (mixedQueue [1,2])
      (FillXPlayersToBG crossWorld 0 crossBattleground false 0 0 (mixedQueue [1,2])).1 :=
  (cross_faction_books_iff crossWorld 0 crossBattleground false 0 0 (mixedQueue [1,2])
    (by decide) (by decide) (by decide)).mpr ⟨(by rintro ⟨⟩),by decide⟩

/-- At a start the pre-add of one group leaves its places counted as free; in a running
battleground a group of three that does not fit is counted as if it had been added. -/
theorem cross_faction_books_wrong :
    ¬KeepsBooks (mixedFree crossBattleground true 10) true 0 (mixedQueue [1,2])
        (FillXPlayersToBG crossWorld 0 crossBattleground true 1 10 (mixedQueue [1,2])).1 ∧
      ¬KeepsBooks (mixedFree crossBattleground false 0) false 0 (mixedQueue [3])
        (FillXPlayersToBG crossWorld 0 crossBattleground false 0 0 (mixedQueue [3])).1 := by
  constructor
  · intro h
    exact absurd (h.books [] List.nil_prefix ALLIANCE) (by decide)
  · intro h
    exact absurd (h.books [3] (List.prefix_refl [3]) ALLIANCE) (by decide)

end Projectnelth.BattlegroundQueueModel
