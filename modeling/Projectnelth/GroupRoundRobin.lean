import Mathlib
import Projectnelth.GroupMembership
import Projectnelth.RoundRobin

/-!
# The round-robin looter of a group

`UpdateLooterGuid` starts behind the slot of the current looter, goes to the end of the slots and
then from the first slot to where it started. A looter who is asked for only if needed keeps his
turn while he is near. Who is online and near is given with each call.
-/

namespace Projectnelth.GroupModel

open RoundRobin

inductive LootMethod
  | FREE_FOR_ALL
  | ROUND_ROBIN
  | MASTER_LOOT
  | GROUP_LOOT
  | NEED_BEFORE_GREED
  deriving DecidableEq

/-- What a group knows of its loot. -/
structure LootGroup where
  /-- `m_memberSlots`. -/
  memberSlots : List MemberSlot
  roster : Roster memberSlots
  /-- `m_lootMethod`. -/
  lootMethod : LootMethod
  /-- `m_looterGuid`. -/
  looterGuid : UInt64

/-- The players around a looted object. -/
structure Nearby where
  /-- `FindPlayer` finds the player. -/
  findPlayer : UInt64 → Bool
  /-- `IsAtGroupRewardDistance` of the looted object. -/
  isAtGroupRewardDistance : UInt64 → Bool
  zero : findPlayer 0=false

/-- The player is online and near. -/
def Nearby.eligible (e : Nearby) (guid : UInt64) : Bool :=
  e.findPlayer guid && e.isAtGroupRewardDistance guid

/-- `_getMemberCSlot`, as a position; the end is behind the last slot. -/
def getMemberCSlot (slots : List MemberSlot) (guid : UInt64) : ℕ :=
  slots.findIdx fun slot => slot.guid=guid

/-- A search through a range of slots. -/
def searchLooter (e : Nearby) : List MemberSlot → Option UInt64
  | [] => none
  | slot::slots => if e.eligible slot.guid then some slot.guid else searchLooter e slots

def UpdateLooterGuid (g : LootGroup) (e : Nearby) (ifneed : Bool) : LootGroup :=
  match g.lootMethod with
  | LootMethod.MASTER_LOOT | LootMethod.FREE_FOR_ALL => g
  | _ =>
    let itr := getMemberCSlot g.memberSlots g.looterGuid
    if ifneed && (g.memberSlots[itr]?).any fun slot => e.eligible slot.guid then g
    else
      let guid_itr := if itr < g.memberSlots.length then itr+1 else itr
      let pNewLooter := (searchLooter e (g.memberSlots.drop guid_itr)).or
        (searchLooter e (g.memberSlots.take guid_itr))
      match pNewLooter with
      | some guid => if g.looterGuid≠guid then { g with looterGuid := guid } else g
      | none => { g with looterGuid := 0 }

/-- The guids of the slots. -/
def LootGroup.guids (g : LootGroup) : List UInt64 := g.memberSlots.map MemberSlot.guid

/-- The loot method is one of those with a round robin. -/
def LootGroup.IsRoundRobin (g : LootGroup) : Prop :=
  g.lootMethod≠LootMethod.MASTER_LOOT ∧ g.lootMethod≠LootMethod.FREE_FOR_ALL

instance (g : LootGroup) : Decidable g.IsRoundRobin := inferInstanceAs (Decidable (_ ∧ _))

variable {g : LootGroup} {e : Nearby}

theorem eligible_zero (e : Nearby) : e.eligible 0=false := by
  rw [Nearby.eligible,e.zero,Bool.false_and]

theorem searchLooter_eq (e : Nearby) (slots : List MemberSlot) :
    searchLooter e slots=(slots.map MemberSlot.guid).find? e.eligible := by
  induction slots with
  | nil => rfl
  | cons slot slots ih =>
    rw [searchLooter,List.map_cons]
    cases hfit : e.eligible slot.guid with
    | true => rw [if_pos rfl,List.find?_cons_of_pos hfit]
    | false =>
      rw [if_neg Bool.false_ne_true,List.find?_cons_of_neg (by rw [hfit]; exact Bool.false_ne_true),ih]

theorem getMemberCSlot_eq (slots : List MemberSlot) (guid : UInt64) :
    getMemberCSlot slots guid=(slots.map MemberSlot.guid).idxOf guid := by
  induction slots with
  | nil => rfl
  | cons slot slots ih =>
    rw [getMemberCSlot,List.findIdx_cons,List.map_cons,List.idxOf_cons]
    by_cases heq : slot.guid=guid
    · simp [heq]
    · rw [getMemberCSlot] at ih
      simp [heq,ih,beq_false_of_ne heq]

/-- The two searches go through the slots in the order of the turns. -/
theorem search_eq (e : Nearby) (slots : List MemberSlot) (looter : UInt64) :
    let itr := getMemberCSlot slots looter
    let guid_itr := if itr < slots.length then itr+1 else itr
    (searchLooter e (slots.drop guid_itr)).or (searchLooter e (slots.take guid_itr))=
      nextTurn e.eligible (slots.map MemberSlot.guid) looter := by
  dsimp only
  rw [searchLooter_eq,searchLooter_eq,← List.find?_append,nextTurn,turnOrder,getMemberCSlot_eq,
    List.map_drop,List.map_take]
  by_cases hmem : looter∈slots.map MemberSlot.guid
  · have hlt := List.idxOf_lt_length_of_mem hmem
    rw [if_pos hmem,if_pos (by rwa [List.length_map] at hlt),List.rotate_eq_drop_append_take (by omega)]
  · have hend := List.idxOf_eq_length hmem
    rw [if_neg hmem,if_neg (by rw [hend,List.length_map]; omega),hend,
      List.drop_length,List.take_length,List.nil_append]

/-- The current looter is asked for only if needed, and still there. -/
def Keeps (g : LootGroup) (e : Nearby) (ifneed : Bool) : Prop :=
  ifneed=true ∧ g.looterGuid∈g.guids ∧ e.eligible g.looterGuid=true

instance (ifneed : Bool) : Decidable (Keeps g e ifneed) := inferInstanceAs (Decidable (_ ∧ _))

/-- What a call does under a round-robin method. -/
theorem UpdateLooterGuid_eq (hmethod : g.IsRoundRobin) (e : Nearby) (ifneed : Bool) :
    UpdateLooterGuid g e ifneed=if Keeps g e ifneed then g
      else { g with looterGuid := (nextTurn e.eligible g.guids g.looterGuid).getD 0 } := by
  have hkeeps : (ifneed && (g.memberSlots[getMemberCSlot g.memberSlots g.looterGuid]?).any
      fun slot => e.eligible slot.guid)=true ↔ Keeps g e ifneed := by
    have hguid : (g.memberSlots[getMemberCSlot g.memberSlots g.looterGuid]?).map MemberSlot.guid=
        if g.looterGuid∈g.guids then some g.looterGuid else none := by
      rw [← List.getElem?_map,getMemberCSlot_eq]
      show g.guids[g.guids.idxOf g.looterGuid]?=_
      split_ifs with hmem
      · rw [List.getElem?_idxOf hmem]
      · rw [List.idxOf_eq_length hmem,List.getElem?_eq_none le_rfl]
    rw [Bool.and_eq_true,Keeps]
    refine and_congr_right fun _ => ?_
    rw [show ((g.memberSlots[getMemberCSlot g.memberSlots g.looterGuid]?).any
      fun slot => e.eligible slot.guid)=((g.memberSlots[getMemberCSlot g.memberSlots
        g.looterGuid]?).map MemberSlot.guid).any e.eligible by
          cases g.memberSlots[getMemberCSlot g.memberSlots g.looterGuid]? <;> rfl,hguid]
    split_ifs with hmem
    · simp [hmem]
    · simp [hmem]
  have hsearch := search_eq e g.memberSlots g.looterGuid
  dsimp only at hsearch
  unfold UpdateLooterGuid
  split
  · next hmaster => exact absurd hmaster hmethod.1
  · next hfree => exact absurd hfree hmethod.2
  dsimp only
  rw [hsearch]
  by_cases hkeep : Keeps g e ifneed
  · rw [if_pos hkeep,if_pos (hkeeps.mpr hkeep)]
  rw [if_neg hkeep,if_neg (mt hkeeps.mp hkeep)]
  show _={ g with looterGuid := (nextTurn e.eligible (g.memberSlots.map _) _).getD 0 }
  cases nextTurn e.eligible (g.memberSlots.map MemberSlot.guid) g.looterGuid with
  | none => rfl
  | some guid =>
    by_cases hsame : g.looterGuid=guid
    · subst hsame
      exact if_neg (not_not.mpr rfl)
    · exact if_pos hsame

/-- The looters that some calls come to; a call with `ifneed` is no turn. -/
def chosen : LootGroup → List (Nearby×Bool) → List UInt64
  | _,[] => []
  | g,(e,ifneed)::calls =>
    let g := UpdateLooterGuid g e ifneed
    if ifneed then chosen g calls else g.looterGuid::chosen g calls

/-- The same members are fit for each of the calls. -/
def Permanent (g : LootGroup) (fit : UInt64 → Bool) (calls : List (Nearby×Bool)) : Prop :=
  ∀ call∈calls,∀ guid∈g.guids,call.1.eligible guid=fit guid

variable {fit : UInt64 → Bool} {calls : List (Nearby×Bool)}

theorem nextTurn_congr (h : ∀ guid∈g.guids,e.eligible guid=fit guid) :
    nextTurn e.eligible g.guids g.looterGuid=nextTurn fit g.guids g.looterGuid := by
  rw [nextTurn,nextTurn,← List.head?_filter,← List.head?_filter]
  congr 1
  exact List.filter_congr fun guid hguid => h guid (mem_turnOrder.mp hguid)

theorem UpdateLooterGuid_turn (hmethod : g.IsRoundRobin)
    (h : ∀ guid∈g.guids,e.eligible guid=fit guid) :
    UpdateLooterGuid g e false=
      { g with looterGuid := (nextTurn fit g.guids g.looterGuid).getD 0 } := by
  rw [UpdateLooterGuid_eq hmethod,if_neg fun hkeep => Bool.false_ne_true hkeep.1,nextTurn_congr h]

/-- From a fit looter the calls come to those whose turn it is; by induction on the calls. -/
theorem chosen_eq_turns (hmethod : g.IsRoundRobin) (hfit : Permanent g fit calls)
    (hlooter : g.looterGuid∈g.guids.filter fit) :
    chosen g calls=
      turns fit g.guids (calls.countP fun call => call.2=false) g.looterGuid := by
  induction calls generalizing g with
  | nil => rfl
  | cons call calls ih =>
    obtain ⟨e,ifneed⟩ := call
    have hnow := hfit (e,ifneed) List.mem_cons_self
    have hrest : Permanent g fit calls := fun call hcall => hfit call (List.mem_cons_of_mem _ hcall)
    rw [chosen]
    cases ifneed with
    | true =>
      obtain ⟨hmem,hyes⟩ := List.mem_filter.mp hlooter
      have hkeep : Keeps g e true := ⟨rfl,hmem,(hnow _ hmem).trans hyes⟩
      rw [UpdateLooterGuid_eq hmethod,if_pos hkeep,if_pos rfl,
        List.countP_cons_of_neg (by simp)]
      exact ih hmethod hrest hlooter
    | false =>
      rw [UpdateLooterGuid_turn hmethod hnow,if_neg Bool.false_ne_true,
        List.countP_cons_of_pos (by simp),turns]
      cases hnext : nextTurn fit g.guids g.looterGuid with
      | none =>
        obtain ⟨hmem,hyes⟩ := List.mem_filter.mp hlooter
        rw [nextTurn_eq_none.mp hnext _ hmem] at hyes
        cases hyes
      | some next =>
        exact congrArg (next::·) (@ih { g with looterGuid := next } hmethod hrest
          (nextTurn_mem hnext))

/-- Among members that stay fit, as many turns as there are of them take each exactly once;
by induction on the calls before the first turn. -/
theorem chosen_perm (hmethod : g.IsRoundRobin) (hfit : Permanent g fit calls)
    (hcount : (calls.countP fun call => call.2=false)=(g.guids.filter fit).length) :
    (chosen g calls).Perm (g.guids.filter fit) := by
  have hnodup : g.guids.Nodup := g.roster.distinct
  by_cases hlooter : g.looterGuid∈g.guids.filter fit
  · rw [chosen_eq_turns hmethod hfit hlooter,hcount]
    exact turns_perm hnodup g.looterGuid
  induction calls generalizing g with
  | nil =>
    rw [List.eq_nil_of_length_eq_zero hcount.symm]
    exact List.Perm.refl []
  | cons call calls ih =>
    obtain ⟨e,ifneed⟩ := call
    have hnow := hfit (e,ifneed) List.mem_cons_self
    have hrest : Permanent g fit calls := fun call hcall => hfit call (List.mem_cons_of_mem _ hcall)
    rw [chosen]
    cases ifneed with
    | true =>
      have hleave : ¬Keeps g e true := fun hkeep => hlooter
        (List.mem_filter.mpr ⟨hkeep.2.1,(hnow _ hkeep.2.1).symm.trans hkeep.2.2⟩)
      rw [List.countP_cons_of_neg (by simp)] at hcount
      rw [UpdateLooterGuid_eq hmethod,if_neg hleave,if_pos rfl]
      by_cases hthere : (nextTurn e.eligible g.guids g.looterGuid).getD 0∈g.guids.filter fit
      · rw [@chosen_eq_turns
          { g with looterGuid := (nextTurn e.eligible g.guids g.looterGuid).getD 0 } fit calls
          hmethod hrest hthere,hcount]
        exact turns_perm hnodup _
      · exact @ih { g with looterGuid := (nextTurn e.eligible g.guids g.looterGuid).getD 0 }
          hmethod hrest hcount hnodup hthere
    | false =>
      rw [List.countP_cons_of_pos (by simp)] at hcount
      have hperm := @turns_perm _ _ g.guids fit hnodup g.looterGuid
      rw [← hcount,turns] at hperm
      rw [UpdateLooterGuid_turn hmethod hnow,if_neg Bool.false_ne_true]
      cases hnext : nextTurn fit g.guids g.looterGuid with
      | none =>
        have hnil : g.guids.filter fit=[] := List.filter_eq_nil_iff.mpr fun guid hguid => by
          rw [nextTurn_eq_none.mp hnext guid hguid]
          exact Bool.false_ne_true
        rw [hnil] at hcount
        cases hcount
      | some next =>
        rw [hnext] at hperm
        have hturns := @chosen_eq_turns { g with looterGuid := next } fit calls hmethod hrest
          (nextTurn_mem hnext)
        show (next::chosen { g with looterGuid := next } calls).Perm _
        rw [hturns]
        exact hperm

/-- The round-robin looter. A call keeps him or takes the first eligible member in the order of
the turns, and nobody exactly if nobody is eligible; and as many turns as there are
eligible members take each exactly once. -/
theorem round_robin (g : LootGroup) (hmethod : g.IsRoundRobin) :
    (∀ e ifneed,
      UpdateLooterGuid g e ifneed=(if Keeps g e ifneed then g
        else { g with looterGuid := (nextTurn e.eligible g.guids g.looterGuid).getD 0 }) ∧
      ((UpdateLooterGuid g e ifneed).looterGuid=0 ↔ ∀ guid∈g.guids,e.eligible guid=false)) ∧
      ∀ fit calls,Permanent g fit calls →
        (calls.countP fun call => call.2=false)=(g.guids.filter fit).length →
          (chosen g calls).Perm (g.guids.filter fit) := by
  refine ⟨fun e ifneed => ⟨UpdateLooterGuid_eq hmethod e ifneed,?_⟩,
    fun fit calls hfit hcount => chosen_perm hmethod hfit hcount⟩
  rw [UpdateLooterGuid_eq hmethod]
  split_ifs with hkeep
  · refine iff_of_false (fun hzero => ?_) fun hnone => ?_
    · have hyes := hkeep.2.2
      rw [hzero,eligible_zero] at hyes
      cases hyes
    · exact Bool.false_ne_true ((hnone _ hkeep.2.1).symm.trans hkeep.2.2)
  · show (nextTurn e.eligible g.guids g.looterGuid).getD 0=0 ↔ _
    rw [← nextTurn_eq_none]
    cases hnext : nextTurn e.eligible g.guids g.looterGuid with
    | none => exact iff_of_true rfl rfl
    | some next =>
      refine iff_of_false (fun hzero => ?_) (Option.some_ne_none next)
      have hyes := (List.mem_filter.mp (nextTurn_mem hnext)).2
      rw [show next=0 from hzero,eligible_zero] at hyes
      cases hyes

/-- Three members, the second one of whom has the turn. -/
def sampleLootGroup : LootGroup where
  memberSlots := [⟨1,0,0⟩,⟨2,0,0⟩,⟨3,0,0⟩]
  roster := ⟨by decide,by rintro flag (rfl | rfl) <;> decide⟩
  lootMethod := LootMethod.GROUP_LOOT
  looterGuid := 2

theorem round_robin_sample :
    (∀ e ifneed,
      UpdateLooterGuid sampleLootGroup e ifneed=(if Keeps sampleLootGroup e ifneed then
          sampleLootGroup
        else { sampleLootGroup with looterGuid :=
          (nextTurn e.eligible sampleLootGroup.guids sampleLootGroup.looterGuid).getD 0 }) ∧
      ((UpdateLooterGuid sampleLootGroup e ifneed).looterGuid=0 ↔
        ∀ guid∈sampleLootGroup.guids,e.eligible guid=false)) ∧
      ∀ fit calls,Permanent sampleLootGroup fit calls →
        (calls.countP fun call => call.2=false)=(sampleLootGroup.guids.filter fit).length →
          (chosen sampleLootGroup calls).Perm (sampleLootGroup.guids.filter fit) :=
  round_robin sampleLootGroup ⟨by decide,by decide⟩

end Projectnelth.GroupModel
