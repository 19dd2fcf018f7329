import Mathlib
import Projectnelth.GreedyFill
import Projectnelth.LfgGroups

/-!
# When the search finds a group that exists

A match needs members that fill a group. The search takes every member of the queue that
fits the ones before, so it misses a group where one that it has taken stands in the way.
-/

namespace Projectnelth.LfgModel

open Role LfgCompatibility GreedyFill

/-- A new guid, and a queue of members in the state queued that all want the dungeon. -/
structure SearchSetting (mgr : LFGMgr) (q : LFGQueue) (dungeon : LFGDungeonData) (guid : Guid)
    (queue : List Guid) : Prop where
  cache : ∀ key,q.CompatibleMapStore key=none
  new : guid∉queue
  /-- No member is in the queue twice. -/
  nodup : queue.Nodup
  /-- The members are in the state queued. -/
  queued : ∀ other∈queue,mgr.queued other=true
  wants : Wants mgr q.data dungeon (guid::queue)

/-- Some of the queue make a full group with the guid. -/
def Possible (mgr : LFGMgr) (data : Guid → LfgQueueData) (dungeon : LFGDungeonData) (guid : Guid)
    (queue : List Guid) : Prop :=
  ∃ sub,sub.Sublist queue ∧ FullGroup mgr data dungeon (guid::sub)

open Classical in
/-- The members of the queue that fit the guid and the ones taken before. -/
noncomputable def firstComers (mgr : LFGMgr) (data : Guid → LfgQueueData)
    (dungeon : LFGDungeonData) (guid : Guid) (queue : List Guid) : List Guid :=
  greedy (Fits mgr data dungeon) [guid] queue

section

variable {mgr : LFGMgr} {data : Guid → LfgQueueData} {dungeon : LFGDungeonData}
variable {check queue : List Guid} {guid front : Guid}

theorem FullGroup.not_fits (h : FullGroup mgr data dungeon check)
    (hplayers : (data front).roles.keys≠[]) : ¬Fits mgr data dungeon (check++[front]) := by
  intro hfits
  have hplaces := hfits.places
  have hfront := List.length_pos_of_ne_nil hplayers
  rw [players,List.flatMap_append,List.length_append,List.flatMap_singleton] at hplaces
  have hfull := h.2
  rw [players] at hfull
  omega

/-- Whether all are queued is up to the new guid. -/
theorem allQueued_iff (hguid : guid∈check)
    (hqueued : ∀ other∈check,other=guid ∨ mgr.queued other=true) :
    mgr.AllQueued check=mgr.queued guid := by
  have hsome : check.isEmpty=false := by
    cases check with
    | nil => exact absurd hguid List.not_mem_nil
    | cons => rfl
  rw [LFGMgr.AllQueued,hsome,Bool.not_false,Bool.true_and,Bool.eq_iff_iff,List.all_eq_true]
  constructor
  · intro hall
    exact hall guid hguid
  intro hself other hother
  rcases hqueued other hother with rfl | hyes
  · exact hself
  · exact hyes

open Classical in
/-- The pass over the queue makes a match of the members it takes, if they make a full group and
the new guid is queued; by induction on the queue. -/
theorem firstFit_iff (hwants : Wants mgr data dungeon (check++queue)) (hguid : guid∈check)
    (hqueued : ∀ other∈check++queue,other=guid ∨ mgr.queued other=true)
    (hfew : (players data check).length < dungeon.GetMaxGroupSize.toNat) :
    firstFit (verdict mgr data) check queue=true ↔
      mgr.queued guid=true ∧
        FullGroup mgr data dungeon (greedy (Fits mgr data dungeon) check queue) := by
  induction queue generalizing check with
  | nil =>
    refine iff_of_false Bool.false_ne_true fun hand => ?_
    have hfull : (players data check).length=_ := hand.2.2
    omega
  | cons front rest ih =>
    have hmiddle : check++front::rest=(check++[front])++rest :=
      List.append_cons check front rest
    have hshorter : check++rest ⊆ check++front::rest :=
      ((List.sublist_cons_self front rest).append_left check).subset
    have hlonger : check++[front] ⊆ check++front::rest := by
      rw [hmiddle]
      exact List.subset_append_left _ _
    have hpassed := ih (hwants.subset hshorter) hguid
      (fun other hother => hqueued other (hshorter hother)) hfew
    have htaken := hwants.subset hlonger
    have hseveral : 1 < (check++[front]).length := by
      have := List.length_pos_of_mem hguid
      rw [List.length_append,List.length_singleton]
      omega
    by_cases hfits : Fits mgr data dungeon (check++[front])
    · have hverdict := verdict_of_fits htaken hseveral hfits
      have hall := @allQueued_iff mgr (check++[front]) guid (List.mem_append_left _ hguid)
        fun other hother => hqueued other (hlonger hother)
      rw [complete,hall] at hverdict
      rw [greedy,if_pos hfits]
      by_cases hfull : (players data (check++[front])).length=dungeon.GetMaxGroupSize.toNat
      · have hgroup : FullGroup mgr data dungeon (check++[front]) := ⟨hfits,hfull⟩
        rw [greedy_eq_self fun other hother => hgroup.not_fits (hwants.nonempty other
          (List.mem_append_right _ (List.mem_cons_of_mem front hother)))]
        rw [if_neg (not_not.mpr hfull)] at hverdict
        cases hself : mgr.queued guid with
        | true =>
          rw [hself] at hverdict
          rw [firstFit_match hverdict]
          exact iff_of_true rfl ⟨rfl,hgroup⟩
        | false =>
          rw [hself] at hverdict
          rw [firstFit_pass (by rw [hverdict]; decide) (by rw [hverdict]; decide),hpassed,hself]
          exact iff_of_false (fun hand => Bool.false_ne_true hand.1)
            fun hand => Bool.false_ne_true hand.1
      · rw [if_pos hfull] at hverdict
        rw [firstFit_less hverdict]
        rw [hmiddle] at hwants hqueued
        exact ih hwants (List.mem_append_left _ hguid) hqueued
          (lt_of_le_of_ne hfits.places hfull)
    · have hverdict := verdict_of_not_fits htaken hseveral hfits
      rw [greedy,if_neg hfits,firstFit_pass]
      · exact hpassed
      · intro heq
        rw [heq] at hverdict
        cases hverdict
      · intro heq
        rw [heq] at hverdict
        cases hverdict

/-- The search is complete exactly where no full group exists, or the new guid is queued and the
first comers make one. -/
theorem group_search_complete_iff {q : LFGQueue} (h : SearchSetting mgr q dungeon guid queue) :
    (Possible mgr q.data dungeon guid queue →
        (FindNewGroups mgr [guid] queue q).1=LFG_COMPATIBLES_MATCH) ↔
      ¬Possible mgr q.data dungeon guid queue ∨
        mgr.queued guid=true ∧
          FullGroup mgr q.data dungeon (firstComers mgr q.data dungeon guid queue) := by
  classical
  rw [← imp_iff_not_or]
  refine imp_congr_right fun ⟨sub,hsub,hfits,hfull⟩ => ?_
  rw [FindNewGroups_match_iff h.cache h.nodup h.new]
  have hself : Fits mgr q.data dungeon [guid] :=
    hfits.sublist ((List.nil_sublist sub).cons_cons guid)
  have hverdict : verdict mgr q.data [guid]=complete mgr q.data dungeon [guid] := by
    rw [← judge_single (h.wants.subset (by simp)) hself.places]
    rfl
  have hall := @allQueued_iff mgr [guid] guid (List.mem_singleton_self guid)
    fun other hother => Or.inl (List.mem_singleton.mp hother)
  rw [complete,hall] at hverdict
  by_cases hone : (players q.data [guid]).length=dungeon.GetMaxGroupSize.toNat
  · have hgroup : FullGroup mgr q.data dungeon [guid] := ⟨hself,hone⟩
    rw [if_neg (not_not.mpr hone)] at hverdict
    rw [firstComers,greedy_eq_self fun other hother => hgroup.not_fits
      (h.wants.nonempty other (List.mem_cons_of_mem guid hother)),hverdict]
    cases mgr.queued guid with
    | true => exact iff_of_true (Or.inl rfl) ⟨rfl,hgroup⟩
    | false => exact iff_of_false (by simp) fun hand => Bool.false_ne_true hand.1
  · rw [if_pos hone] at hverdict
    rw [hverdict,or_iff_right (by decide),and_iff_right rfl]
    refine firstFit_iff h.wants (List.mem_singleton_self guid) (fun other hother => ?_)
      (lt_of_le_of_ne hself.places hone)
    rcases List.mem_cons.mp hother with rfl | hother
    · exact Or.inl rfl
    · exact Or.inr (h.queued other hother)

end

/-- The map of one player. -/
def LfgRolesMap.single (guid : Guid) (mask : UInt8) : LfgRolesMap :=
  ⟨[guid],List.pairwise_singleton _ _,fun _ => mask⟩

/-- Players on their own, who all want the same dungeon. -/
def soloQueue (mask : Guid → UInt8) : LFGQueue where
  QueueDataStore guid := some ⟨[7],LfgRolesMap.single guid (mask guid)⟩
  CompatibleMapStore _ := none
  newToQueueStore := []
  currentQueueStore := [2,3,4,5,6]
  proposals := []

/-- The dungeon is for a tank, a healer and three damage dealers. -/
def soloMgr (ignores : Guid → Guid → Bool) : LFGMgr where
  GetLFGDungeon dungeonId := if dungeonId=7 then some ⟨1,1,3⟩ else none
  IsLfgGroup _ := false
  FindPlayer _ := true
  ignores := ignores
  queued _ := true
  random _ := 0

theorem solo_setting (mask : Guid → UInt8) (ignores : Guid → Guid → Bool) {queue : List Guid}
    (hnew : 1∉queue) (hnodup : queue.Nodup) :
    SearchSetting (soloMgr ignores) (soloQueue mask) ⟨1,1,3⟩ 1 queue where
  cache _ := rfl
  new := hnew
  nodup := hnodup
  queued _ _ := rfl
  wants := ⟨⟨7,rfl,fun _ _ => rfl⟩,fun guid _ => List.cons_ne_nil guid [],
    fun _ _ => (by decide : 1+5 < 256)⟩

/-- A tank, a healer and damage dealers. -/
def partyMask (guid : Guid) : UInt8 := if guid=2 ∨ guid=3 then 0x02 else if guid=4 then 0x04 else 0x08

/-- The roles of these. -/
def partyRole (guid : Guid) : Role := if guid=2 ∨ guid=3 then TANK else if guid=4 then HEALER else DAMAGE

/-- One tank, the healer and three damage dealers are a full group unless they ignore each
other. -/
theorem party_full (ignores : Guid → Guid → Bool) {tank : Guid} (htank : tank=2 ∨ tank=3)
    (hignores : ∀ guid1∈[1,tank,4,5,6],∀ guid2∈[1,tank,4,5,6],ignores guid1 guid2=false) :
    FullGroup (soloMgr ignores) (soloQueue partyMask).data ⟨1,1,3⟩ [1,tank,4,5,6] := by
  have hplayers : players (soloQueue partyMask).data [1,tank,4,5,6]=[1,tank,4,5,6] := rfl
  refine ⟨⟨le_of_eq rfl,⟨?_,fun guid1 h1 guid2 h2 _ => ?_⟩,Nat.zero_le 1,partyRole,?_,?_,fun r => ?_⟩,rfl⟩
  · rw [hplayers]
    rcases htank with rfl | rfl <;> decide
  · rw [hplayers] at h1 h2
    show (true && true && (ignores guid1 guid2 || ignores guid2 guid1))=false
    rw [hignores guid1 h1 guid2 h2,hignores guid2 h2 guid1 h1]
    rfl
  · rcases htank with rfl | rfl <;> decide
  · rcases htank with rfl | rfl <;> decide
  · rw [hplayers]
    rcases htank with rfl | rfl <;> cases r <;> decide

/-- In a queue of a tank, a healer and two damage dealers everyone is taken. -/
theorem group_search_complete_sample :
    (FindNewGroups (soloMgr fun _ _ => false) [1] [2,4,5,6] (soloQueue partyMask)).1=
      LFG_COMPATIBLES_MATCH := by
  classical
  have hfull := party_full (fun _ _ => false) (Or.inl rfl) fun _ _ _ _ => rfl
  have hsub : ∀ sub,sub.Sublist [1,2,4,5,6] →
      Fits (soloMgr fun _ _ => false) (soloQueue partyMask).data ⟨1,1,3⟩ sub := fun sub h =>
    hfull.1.sublist h
  have hcomers : firstComers (soloMgr fun _ _ => false) (soloQueue partyMask).data ⟨1,1,3⟩ 1
      [2,4,5,6]=[1,2,4,5,6] := by
    show greedy _ [1] [2,4,5,6]=_
    rw [greedy,if_pos (hsub _ (by decide)),greedy,if_pos (hsub _ (by decide)),
      greedy,if_pos (hsub _ (by decide)),greedy,if_pos (hsub _ (by decide))]
    rfl
  refine (group_search_complete_iff (solo_setting partyMask _ (by decide) (by decide))).mpr
    (Or.inr ⟨rfl,?_⟩) ⟨[2,4,5,6],List.Sublist.refl _,hfull⟩
  rw [hcomers]
  exact hfull

/-- The first tank of the queue is taken, and a damage dealer of the group with the other
tank is on its ignore list. -/
theorem group_search_misses_group :
    SearchSetting (soloMgr fun guid1 guid2 => guid1==2 && guid2==5) (soloQueue partyMask) ⟨1,1,3⟩ 1
        [2,3,4,5,6] ∧
      Possible (soloMgr fun guid1 guid2 => guid1==2 && guid2==5) (soloQueue partyMask).data ⟨1,1,3⟩ 1
        [2,3,4,5,6] ∧
      (FindNewGroups (soloMgr fun guid1 guid2 => guid1==2 && guid2==5) [1] [2,3,4,5,6]
        (soloQueue partyMask)).1=LFG_COMPATIBLES_WITH_LESS_PLAYERS :=
  ⟨solo_setting partyMask _ (by decide) (by decide),
    ⟨[3,4,5,6],by decide,party_full _ (Or.inr rfl) (by decide)⟩,by decide +kernel⟩

end Projectnelth.LfgModel
