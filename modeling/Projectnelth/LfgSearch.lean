import Mathlib
import Projectnelth.LfgQueueModel
import Projectnelth.LfgRoleCheck

/-!
# What the group search finds

What `CheckCompatibility` returns depends on the data of the members only, and the search
never asks the cache for a list that it has stored. Since all levels of the recursion take
from one list, a member that fits is never left out again: the search is one pass over the
queue that takes every member which fits the ones before.
-/

namespace Projectnelth.LfgModel

open Role LfgCompatibility

/-- What `CheckCompatibility` returns. -/
def verdict (mgr : LFGMgr) (data : Guid → LfgQueueData) : List Guid → LfgCompatibility
  | [] => LFG_INCOMPATIBLES_WRONG_GROUP_SIZE
  | front::rest =>
    let child :=
      if 1 < rest.length then verdict mgr data rest else LFG_COMPATIBLES_WITH_LESS_PLAYERS
    if child.incompatible then child else (judge mgr data (front::rest)).compatibility

/-- One pass over the queue: a member that makes the list a match ends it, one that
fits is kept, another one is passed over. -/
def firstFit (verdict : List Guid → LfgCompatibility) : List Guid → List Guid → Bool
  | _,[] => false
  | check,front::all =>
    match verdict (check++[front]) with
    | LFG_COMPATIBLES_MATCH => true
    | LFG_COMPATIBLES_WITH_LESS_PLAYERS => firstFit verdict (check++[front]) all
    | _ => firstFit verdict check all

section

variable {verdict : List Guid → LfgCompatibility} {check all : List Guid} {front : Guid}

theorem firstFit_match (h : verdict (check++[front])=LFG_COMPATIBLES_MATCH) :
    firstFit verdict check (front::all)=true := by
  rw [firstFit,h]

theorem firstFit_less (h : verdict (check++[front])=LFG_COMPATIBLES_WITH_LESS_PLAYERS) :
    firstFit verdict check (front::all)=firstFit verdict (check++[front]) all := by
  rw [firstFit,h]

/-- Any other verdict passes the member over. -/
theorem firstFit_pass (hmatch : verdict (check++[front])≠LFG_COMPATIBLES_MATCH)
    (hless : verdict (check++[front])≠LFG_COMPATIBLES_WITH_LESS_PLAYERS) :
    firstFit verdict check (front::all)=firstFit verdict check all := by
  rw [firstFit]
  cases hresult : verdict (check++[front]) <;> first
    | rfl
    | exact absurd hresult hless
    | exact absurd hresult hmatch

end

section

variable {mgr : LFGMgr} {q : LFGQueue} {check all : List Guid}

/-- Making the data of members changes no data. -/
theorem data_index (q : LFGQueue) (check : List Guid) : (q.index check).data=q.data := by
  funext guid
  show ((if guid∈check then some (q.data guid) else q.QueueDataStore guid).getD default)=_
  split
  · rfl
  · rfl

theorem data_carryOut (q : LFGQueue) (check : List Guid) (judgement : Judgement) :
    (q.carryOut check judgement).data=q.data := by
  unfold LFGQueue.carryOut
  cases judgement.proposal with
  | none =>
    dsimp only
    split
    · rfl
    · rfl
  | some proposal =>
    dsimp only
    split
    · rfl
    · rfl

/-- Only the entry of the list is written. -/
theorem carryOut_cache (q : LFGQueue) (check : List Guid) (judgement : Judgement)
    {key : Finset Guid} (hkey : key≠check.toFinset) :
    (q.carryOut check judgement).CompatibleMapStore key=q.CompatibleMapStore key := by
  unfold LFGQueue.carryOut
  cases judgement.proposal with
  | none =>
    dsimp only
    split
    · exact Function.update_of_ne hkey _ _
    · rfl
  | some proposal =>
    dsimp only
    split
    · exact Function.update_of_ne hkey _ _
    · rfl

/-- `CheckCompatibility` returns the verdict on the data, and keeps the data. -/
theorem CheckCompatibility_eq (mgr : LFGMgr) (check : List Guid) (q : LFGQueue) :
    (CheckCompatibility mgr check q).1=verdict mgr q.data check ∧
      (CheckCompatibility mgr check q).2.data=q.data := by
  induction check generalizing q with
  | nil => exact ⟨rfl,rfl⟩
  | cons front rest ih =>
    have hchild : (if 1 < rest.length then CheckCompatibility mgr rest q
          else (LFG_COMPATIBLES_WITH_LESS_PLAYERS,q)).1=
        (if 1 < rest.length then verdict mgr q.data rest
          else LFG_COMPATIBLES_WITH_LESS_PLAYERS) ∧
        (if 1 < rest.length then CheckCompatibility mgr rest q
          else (LFG_COMPATIBLES_WITH_LESS_PLAYERS,q)).2.data=q.data := by
      split
      · exact ih q
      · exact ⟨rfl,rfl⟩
    rw [CheckCompatibility,verdict,← hchild.1]
    generalize (if 1 < rest.length then CheckCompatibility mgr rest q
      else (LFG_COMPATIBLES_WITH_LESS_PLAYERS,q))=child at hchild ⊢
    dsimp only
    cases child.1.incompatible with
    | true => exact ⟨rfl,hchild.2⟩
    | false =>
      rw [if_neg Bool.false_ne_true,if_neg Bool.false_ne_true,data_carryOut,data_index,hchild.2]
      exact ⟨rfl,rfl⟩

/-- It writes entries for the ends of the list. -/
theorem CheckCompatibility_cache (mgr : LFGMgr) (check : List Guid) (q : LFGQueue)
    {key : Finset Guid} (hkey : ∀ rest,rest <:+ check → key≠rest.toFinset) :
    (CheckCompatibility mgr check q).2.CompatibleMapStore key=q.CompatibleMapStore key := by
  induction check generalizing q with
  | nil => rfl
  | cons front rest ih =>
    have hself := hkey (front::rest) List.suffix_rfl
    have hrest := fun end_ (h : end_ <:+ rest) => hkey end_ (h.trans (List.suffix_cons front rest))
    have hchild : (if 1 < rest.length then CheckCompatibility mgr rest q
        else (LFG_COMPATIBLES_WITH_LESS_PLAYERS,q)).2.CompatibleMapStore key=
        q.CompatibleMapStore key := by
      split
      · exact ih q hrest
      · rfl
    rw [CheckCompatibility]
    generalize (if 1 < rest.length then CheckCompatibility mgr rest q
      else (LFG_COMPATIBLES_WITH_LESS_PLAYERS,q))=child at hchild ⊢
    dsimp only
    cases child.1.incompatible with
    | true => exact (Function.update_of_ne hself _ _).trans hchild
    | false => exact (carryOut_cache _ _ _ hself).trans hchild

theorem not_allQueued_of_judge {data : Guid → LfgQueueData}
    (h : (judge mgr data check).compatibility=LFG_COMPATIBLES_BAD_STATES) :
    mgr.AllQueued check=false := by
  unfold judge at h
  dsimp only at h
  split at h
  · cases h
  · -- the one case of each kind of list behind all tests but the last
    split_ifs at h
    · rename_i hqueued
      simpa using hqueued
    · rename_i hqueued
      simpa using hqueued

theorem not_allQueued_of_verdict {data : Guid → LfgQueueData}
    (h : verdict mgr data check=LFG_COMPATIBLES_BAD_STATES) : mgr.AllQueued check=false := by
  cases check with
  | nil => rfl
  | cons front rest =>
    rw [verdict] at h
    generalize (if 1 < rest.length then verdict mgr data rest
      else LFG_COMPATIBLES_WITH_LESS_PLAYERS)=child at h
    split at h
    · rename_i hincompatible
      rw [h] at hincompatible
      cases hincompatible
    · exact not_allQueued_of_judge h

/-- A list that is not in the cache is judged by the verdict. -/
theorem checkCached_eq (hnew : q.CompatibleMapStore check.toFinset=none) :
    checkCached mgr check q=CheckCompatibility mgr check q := by
  have hpending : q.GetCompatibles check=LFG_COMPATIBILITY_PENDING := by
    rw [LFGQueue.GetCompatibles,hnew]
    rfl
  unfold checkCached
  rw [if_pos hpending]
  dsimp only
  rw [if_neg]
  intro hand
  obtain ⟨hbad,hqueued⟩ := Bool.and_eq_true_iff.mp hand
  have hverdict := of_decide_eq_true hbad
  rw [(CheckCompatibility_eq mgr check q).1] at hverdict
  rw [not_allQueued_of_verdict hverdict] at hqueued
  cases hqueued

/-- The cache has no entry with one of the members that are still to be tried. -/
def Fresh (q : LFGQueue) (all : List Guid) : Prop :=
  ∀ key,(∃ guid∈all,guid∈key) → q.CompatibleMapStore key=none

/-- A check of other members leaves the cache without entries of these. -/
theorem Fresh.checked (h : Fresh q all) (hnew : ∀ guid∈all,guid∉check) :
    Fresh (CheckCompatibility mgr check q).2 all := by
  intro key hkey
  rw [CheckCompatibility_cache]
  · exact h key hkey
  · rintro rest hrest rfl
    obtain ⟨guid,hguid,hmem⟩ := hkey
    exact hnew guid hguid (hrest.subset (List.mem_toFinset.mp hmem))

/-- The loop of the search is the pass over the queue. Where that finds no match the list is
used up, whatever level of the recursion it was; by induction on the list. -/
theorem tryQueued_eq {data : Guid → LfgQueueData} {compatibles : LfgCompatibility} {fuel : ℕ}
    (hfuel : all.length ≤ fuel) (hdata : q.data=data) (hfresh : Fresh q all)
    (hnodup : all.Nodup) (hnew : ∀ guid∈all,guid∉check) :
    if firstFit (verdict mgr data) check all then
      (tryQueued mgr fuel compatibles check all q).1=LFG_COMPATIBLES_MATCH
    else (tryQueued mgr fuel compatibles check all q).1=compatibles ∧
      (tryQueued mgr fuel compatibles check all q).2.1=[] := by
  induction all generalizing fuel check q compatibles with
  | nil =>
    rw [firstFit,if_neg Bool.false_ne_true]
    cases fuel <;> exact ⟨rfl,rfl⟩
  | cons front all ih =>
    obtain ⟨fuel,rfl⟩ : ∃ n,fuel=n+1 := ⟨fuel-1,by rw [List.length_cons] at hfuel; omega⟩
    have hless : all.length ≤ fuel := by
      rw [List.length_cons] at hfuel
      omega
    obtain ⟨hfront,hall⟩ := List.nodup_cons.mp hnodup
    have hlonger : ∀ guid∈all,guid∉check++[front] := by
      intro guid hguid hmem
      rcases List.mem_append.mp hmem with hmem | hmem
      · exact hnew guid (List.mem_cons_of_mem front hguid) hmem
      · rw [List.mem_singleton.mp hmem] at hguid
        exact hfront hguid
    have hkey : q.CompatibleMapStore (check++[front]).toFinset=none :=
      hfresh _ ⟨front,List.mem_cons_self,by simp⟩
    have hrest : Fresh q all := fun key ⟨guid,hguid,hmem⟩ =>
      hfresh key ⟨guid,List.mem_cons_of_mem front hguid,hmem⟩
    obtain ⟨hverdict,hkept⟩ := CheckCompatibility_eq mgr (check++[front]) q
    rw [hdata] at hverdict hkept
    have hnext := @Fresh.checked mgr q (check++[front]) all hrest hlonger
    rw [tryQueued,checkCached_eq hkey]
    generalize CheckCompatibility mgr (check++[front]) q=checked at hverdict hkept hnext ⊢
    by_cases hfits : checked.1=LFG_COMPATIBLES_WITH_LESS_PLAYERS
    · have hdeeper := @ih checked.2 (check++[front]) checked.1 fuel hless hkept hnext hall hlonger
      rw [firstFit_less (hverdict.symm.trans hfits)]
      rw [hfits] at hdeeper ⊢
      rw [if_pos rfl]
      split at hdeeper
      · rename_i hfound
        rw [if_pos hfound,if_pos hdeeper]
      rename_i hmissed
      obtain ⟨hresult,hleft⟩ := hdeeper
      rw [if_neg hmissed,if_neg (by rw [hresult]; decide),hleft]
      cases fuel <;> exact ⟨rfl,rfl⟩
    · rw [if_neg hfits]
      dsimp only
      by_cases hmatch : checked.1=LFG_COMPATIBLES_MATCH
      · rw [hmatch,firstFit_match (hverdict.symm.trans hmatch)]
        rfl
      · rw [if_neg hmatch,firstFit_pass (hverdict ▸ hmatch) (hverdict ▸ hfits)]
        exact ih hless hkept hnext hall fun guid hguid =>
          hnew guid (List.mem_cons_of_mem front hguid)

/-- The search finds a match exactly where one pass over the queue finds it. -/
theorem FindNewGroups_match_iff {guid : Guid} (hcache : ∀ key,q.CompatibleMapStore key=none)
    (hnodup : all.Nodup) (hnew : guid∉all) :
    (FindNewGroups mgr [guid] all q).1=LFG_COMPATIBLES_MATCH ↔
      verdict mgr q.data [guid]=LFG_COMPATIBLES_MATCH ∨
        verdict mgr q.data [guid]=LFG_COMPATIBLES_WITH_LESS_PLAYERS ∧
          firstFit (verdict mgr q.data) [guid] all=true := by
  obtain ⟨hverdict,hkept⟩ := CheckCompatibility_eq mgr [guid] q
  have hother : ∀ other∈all,other∉[guid] := by
    intro other hother hmem
    rw [List.mem_singleton.mp hmem] at hother
    exact hnew hother
  have hfresh := @Fresh.checked mgr q [guid] all (fun key _ => hcache key) hother
  unfold FindNewGroups
  rw [checkCached_eq (hcache _)]
  dsimp only
  rw [hverdict]
  split
  · rename_i hless
    have hloop := @tryQueued_eq mgr (CheckCompatibility mgr [guid] q).2 [guid] all q.data
      LFG_COMPATIBLES_WITH_LESS_PLAYERS all.length le_rfl hkept hfresh hnodup hother
    rw [hless,or_iff_right (by decide),and_iff_right rfl]
    split at hloop
    · rename_i hfound
      exact iff_of_true hloop hfound
    · rename_i hmissed
      rw [hloop.1]
      exact iff_of_false (by decide) hmissed
  · rename_i hless
    exact (or_iff_left fun hand => hless hand.1).symm

end

end Projectnelth.LfgModel
