import Mathlib
import Projectnelth.GroupLootTally
import Projectnelth.RunInvariant

/-!
# Rolls and blocked items

Each item that a roll has blocked keeps its roll until the roll is decided. What stays
blocked after that is what an LFR group has passed on, and what was won by a player that
is not in the world, and what a roll was dropped for with the group; quest items may be blocked
before there is a roll at all.
-/

namespace Projectnelth.GroupLootModel

open KeyedList RunInvariant

/-- The item in a slot of a loot is blocked and not looted. -/
def BlockedAt (loots : ℕ → Option Loot) (loot slot : ℕ) : Prop :=
  ∃ l item,loots loot=some l ∧ itemAt l slot=some item ∧ item.is_blocked ∧ item.is_looted=false

/-- The item was blocked before there were rolls for its loot. -/
def BlockedBefore (s : GroupRolls) (loot slot : ℕ) : Prop :=
  ∃ l item,s.filled loot=some l ∧ itemAt l slot=some item ∧ item.is_blocked

/-- An LFR group has passed on the item. -/
def PassedByLFR (s : GroupRolls) (loot slot : ℕ) : Prop :=
  ∃ v∈s.verdicts,v.roll.loot=loot ∧ v.roll.itemSlot=slot ∧ v.winner=none ∧ v.isLFRGroup

/-- The item was won by a player that is not in the world. -/
def WonByAbsent (s : GroupRolls) (loot slot : ℕ) : Prop :=
  ∃ v∈s.verdicts,v.roll.loot=loot ∧ v.roll.itemSlot=slot ∧ v.winner.isSome ∧ v.present=false

/-- The roll for the item was dropped when the group was disbanded. -/
def DroppedByDisband (s : GroupRolls) (loot slot : ℕ) : Prop :=
  ∃ roll∈s.dropped,roll.loot=loot ∧ roll.itemSlot=slot

/-- A vote is among those that the winner is drawn from. -/
def Contends (votes : PlayerVote) (vote : RollVote) : Prop :=
  vote=.need ∨ ((∀ entry∈votes,entry.2≠.need) ∧ (vote=.greed ∨ vote=.disenchant))

/-- What is right about the outcome of a roll. -/
structure Fair (v : Verdict) : Prop where
  tallied : Tallied v.roll
  voted : v.timer ∨ ∀ entry∈v.roll.playerVote,entry.2≠.notEmitedYet
  /-- The winner has voted for it and rolled the most among those who have. -/
  highest : ∀ guid,v.winner=some guid →
    (∃ vote,(guid,vote)∈v.roll.playerVote ∧ Contends v.roll.playerVote vote) ∧
    ∀ entry∈v.roll.playerVote,Contends v.roll.playerVote entry.2 → v.dice entry.1 ≤ v.dice guid
  nobody : v.winner=none → ∀ entry∈v.roll.playerVote,¬Contends v.roll.playerVote entry.2

/-- What holds of the rolls of a group at all times. -/
structure Sound (s : GroupRolls) : Prop where
  /-- The counters of each roll are those of its votes. -/
  tallied : ∀ roll∈s.rolls,Tallied roll
  single : (s.rolls.map fun roll => (roll.loot,roll.itemSlot)).Nodup
  /-- Each item that is blocked has a roll, if nothing else keeps it blocked. -/
  blocked : ∀ loot slot,BlockedAt s.loots loot slot →
    (∃ roll∈s.rolls,roll.loot=loot ∧ roll.itemSlot=slot) ∨
      BlockedBefore s loot slot ∨ PassedByLFR s loot slot ∨ WonByAbsent s loot slot ∨
      DroppedByDisband s loot slot
  fair : ∀ v∈s.verdicts,Fair v
  distinct : (s.rolls.map Roll.itemGUID).Nodup
  given : ∀ roll∈s.rolls,roll.loot < s.nextLoot

section Items
variable {l : Loot} {slot slot' : ℕ} {f : LootItem → LootItem}

theorem itemAt_modifyItem (l : Loot) (slot slot' : ℕ) (f : LootItem → LootItem) :
    itemAt (modifyItem l slot f) slot'=
      if slot'=slot then (itemAt l slot').map f else itemAt l slot' := by
  unfold itemAt modifyItem
  by_cases hslot : slot ≥ l.items.length
  · rw [if_pos hslot]
    by_cases hslot' : slot' ≥ l.items.length
    · simp only [if_pos hslot']
      by_cases heq : slot'=slot
      · rw [if_pos heq,heq]
        exact List.getElem?_modify_eq _ _ _
      · rw [if_neg heq]
        exact List.getElem?_modify_ne _ _ (by omega)
    · simp only [if_neg hslot']
      rw [if_neg (by omega)]
  · rw [if_neg hslot]
    simp only [List.length_modify]
    by_cases hslot' : slot' ≥ l.items.length
    · simp only [if_pos hslot']
      rw [if_neg (by omega)]
    simp only [if_neg hslot']
    by_cases heq : slot'=slot
    · rw [if_pos heq,heq]
      exact List.getElem?_modify_eq _ _ _
    · rw [if_neg heq]
      exact List.getElem?_modify_ne _ _ (Ne.symm heq)

theorem blockedAt_writeItem {s : GroupRolls} {loot slot loot' slot' : ℕ} {f : LootItem → LootItem}
    (h : BlockedAt (writeItem s loot slot f).loots loot' slot') :
    (BlockedAt s.loots loot' slot' ∧ (loot',slot')≠(loot,slot)) ∨
    ((loot',slot')=(loot,slot) ∧ ∃ l item,s.loots loot=some l ∧ itemAt l slot=some item ∧
      (f item).is_blocked ∧ (f item).is_looted=false) := by
  obtain ⟨l,item,hl,hitem,hblocked,hlooted⟩ := h
  unfold writeItem at hl
  dsimp only at hl
  by_cases hloot : loot'=loot
  · subst hloot
    rw [Function.update_self] at hl
    obtain ⟨before,hbefore,rfl⟩ := Option.map_eq_some_iff.mp hl
    rw [itemAt_modifyItem] at hitem
    by_cases hslot : slot'=slot
    · subst hslot
      rw [if_pos rfl] at hitem
      obtain ⟨old,hold,rfl⟩ := Option.map_eq_some_iff.mp hitem
      exact Or.inr ⟨rfl,before,old,hbefore,hold,hblocked,hlooted⟩
    · rw [if_neg hslot] at hitem
      exact Or.inl ⟨⟨before,item,hbefore,hitem,hblocked,hlooted⟩,
        fun heq => hslot (Prod.mk.inj heq).2⟩
  · rw [Function.update_of_ne hloot] at hl
    exact Or.inl ⟨⟨l,item,hl,hitem,hblocked,hlooted⟩,fun heq => hloot (Prod.mk.inj heq).1⟩

theorem blockedAt_takeItem {s : GroupRolls} {roll : Roll} {loot slot : ℕ}
    (h : BlockedAt (takeItem s roll).loots loot slot) :
    BlockedAt s.loots loot slot ∧ (loot,slot)≠(roll.loot,roll.itemSlot) := by
  have htaken : BlockedAt (writeItem s roll.loot roll.itemSlot fun item =>
      { item with is_looted := true }).loots loot slot := by
    obtain ⟨l,item,hl,hrest⟩ := h
    unfold takeItem at hl
    dsimp only at hl
    by_cases hloot : loot=roll.loot
    · subst hloot
      rw [Function.update_self] at hl
      obtain ⟨before,hbefore,rfl⟩ := Option.map_eq_some_iff.mp hl
      exact ⟨before,item,hbefore,hrest⟩
    · rw [Function.update_of_ne hloot] at hl
      exact ⟨l,item,hl,hrest⟩
  rcases blockedAt_writeItem htaken with hother | ⟨_,_,_,_,_,_,hlooted⟩
  · exact hother
  · exact absurd hlooted.symm Bool.false_ne_true

theorem blockedAt_unblockItem {s : GroupRolls} {roll : Roll} {loot slot : ℕ}
    (h : BlockedAt (unblockItem s roll).loots loot slot) :
    BlockedAt s.loots loot slot ∧ (loot,slot)≠(roll.loot,roll.itemSlot) := by
  rcases blockedAt_writeItem h with hother | ⟨_,_,_,_,_,hblocked,_⟩
  · exact hother
  · exact absurd hblocked Bool.false_ne_true

theorem blockedAt_storeItem {w : RollWorld} {s : GroupRolls} {roll : Roll} {player : UInt64}
    {loot slot : ℕ} (h : BlockedAt (storeItem w s roll player).loots loot slot) :
    BlockedAt s.loots loot slot ∧ (loot,slot)≠(roll.loot,roll.itemSlot) := by
  unfold storeItem at h
  split at h
  · rename_i hnone
    refine ⟨h,fun heq => ?_⟩
    obtain ⟨hloot,hslot⟩ := Prod.mk.inj heq
    subst hloot hslot
    obtain ⟨l,item,hl,hitem,-⟩ := h
    rw [hl,Option.bind_some,hitem] at hnone
    exact absurd hnone (Option.some_ne_none item)
  · split at h
    · exact blockedAt_takeItem h
    · exact blockedAt_unblockItem h

end Items

theorem wants_iff (v : RollVote) : wants v ↔ v=.greed ∨ v=.disenchant := by
  cases v <;> simp [wants]

section Outcomes
variable {roll : Roll} {timer : Bool} {dice : UInt64 → ℕ}

theorem fair_need (h : Tallied roll) (hvoted : timer ∨ ∀ entry∈roll.playerVote,entry.2≠.notEmitedYet)
    (hdice : ∀ guid,0 < dice guid) (hneed : roll.totalNeed > 0) (present lfr : Bool) :
    Fair ⟨roll,timer,dice,some (best dice (fun vote => decide (vote=.need)) roll.playerVote).1,
      present,lfr⟩ := by
  have hpos : 0 < votesFor (fun vote => decide (vote=.need)) roll.playerVote :=
    h.need ▸ UInt8.lt_iff_toNat_lt.mp hneed
  obtain ⟨vote,-,hmem,hwins,hmax⟩ := best_spec hdice (votesFor_pos.mp hpos)
  obtain ⟨entry,hentry,hentryneed⟩ := votesFor_pos.mp hpos
  refine ⟨h,hvoted,fun guid hguid => ?_,fun hnone => (by cases hnone)⟩
  obtain rfl := Option.some.inj hguid
  refine ⟨⟨vote,hmem,Or.inl (of_decide_eq_true hwins)⟩,fun other hother hcontends => ?_⟩
  rcases hcontends with hother' | ⟨hnobody,-⟩
  · exact hmax other hother (decide_eq_true hother')
  · exact absurd (of_decide_eq_true hentryneed) (hnobody entry hentry)

theorem fair_greed (h : Tallied roll)
    (hvoted : timer ∨ ∀ entry∈roll.playerVote,entry.2≠.notEmitedYet)
    (hdice : ∀ guid,0 < dice guid) (hneed : ¬roll.totalNeed > 0) (hgreed : roll.totalGreed > 0)
    (present lfr : Bool) :
    Fair ⟨roll,timer,dice,some (best dice wants roll.playerVote).1,present,lfr⟩ := by
  have hpos : 0 < votesFor wants roll.playerVote := h.greed ▸ UInt8.lt_iff_toNat_lt.mp hgreed
  have hzero : votesFor (fun vote => decide (vote=.need)) roll.playerVote=0 := by
    rw [←h.need]
    exact Nat.eq_zero_of_not_pos fun hlt => hneed (UInt8.lt_iff_toNat_lt.mpr hlt)
  have hnobody : ∀ entry∈roll.playerVote,entry.2≠.need := fun entry hentry heq =>
    votesFor_eq_zero.mp hzero entry hentry (decide_eq_true heq)
  obtain ⟨vote,-,hmem,hwins,hmax⟩ := best_spec hdice (votesFor_pos.mp hpos)
  refine ⟨h,hvoted,fun guid hguid => ?_,fun hnone => (by cases hnone)⟩
  obtain rfl := Option.some.inj hguid
  refine ⟨⟨vote,hmem,Or.inr ⟨hnobody,(wants_iff vote).mp hwins⟩⟩,fun other hother hcontends => ?_⟩
  rcases hcontends with hother' | ⟨-,hwanted⟩
  · exact absurd hother' (hnobody other hother)
  · exact hmax other hother ((wants_iff other.2).mpr hwanted)

theorem fair_passed (h : Tallied roll)
    (hvoted : timer ∨ ∀ entry∈roll.playerVote,entry.2≠.notEmitedYet)
    (hneed : ¬roll.totalNeed > 0) (hgreed : ¬roll.totalGreed > 0) (present lfr : Bool) :
    Fair ⟨roll,timer,dice,none,present,lfr⟩ := by
  have hzero : votesFor (fun vote => decide (vote=.need)) roll.playerVote=0 := by
    rw [←h.need]
    exact Nat.eq_zero_of_not_pos fun hlt => hneed (UInt8.lt_iff_toNat_lt.mpr hlt)
  have hzero' : votesFor wants roll.playerVote=0 := by
    rw [←h.greed]
    exact Nat.eq_zero_of_not_pos fun hlt => hgreed (UInt8.lt_iff_toNat_lt.mpr hlt)
  refine ⟨h,hvoted,fun _ hsome => (by cases hsome),fun _ entry hentry hcontends => ?_⟩
  rcases hcontends with hother | ⟨-,hwanted⟩
  · exact votesFor_eq_zero.mp hzero entry hentry (decide_eq_true hother)
  · exact votesFor_eq_zero.mp hzero' entry hentry ((wants_iff entry.2).mpr hwanted)

end Outcomes

section States
variable {s : GroupRolls} {roll : Roll}

/-- A roll goes; its item is not blocked any more, or something else keeps it blocked. -/
theorem sound_erase (h : Sound s) (hroll : roll∈s.rolls) {loots : ℕ → Option Loot}
    {verdicts : List Verdict} (hverdicts : ∀ v∈s.verdicts,v∈verdicts)
    (hfair : ∀ v∈verdicts,Fair v)
    (hblocked : ∀ loot slot,BlockedAt loots loot slot → BlockedAt s.loots loot slot ∧
      ((loot,slot)≠(roll.loot,roll.itemSlot) ∨
        PassedByLFR { s with loots := loots, verdicts := verdicts } loot slot ∨
        WonByAbsent { s with loots := loots, verdicts := verdicts } loot slot)) :
    Sound (eraseRoll { s with loots := loots, verdicts := verdicts } roll) := by
  have hsub : (s.rolls.filter fun other => other.itemGUID≠roll.itemGUID).Sublist s.rolls :=
    List.filter_sublist
  refine ⟨fun other hother => h.tallied other (hsub.subset hother),h.single.sublist (hsub.map _),
    fun loot slot hat => ?_,hfair,h.distinct.sublist (hsub.map _),
    fun other hother => h.given other (hsub.subset hother)⟩
  obtain ⟨hbefore,hkept⟩ := hblocked loot slot hat
  rcases hkept with hne | hkept
  · rcases h.blocked loot slot hbefore with ⟨other,hother,hloot,hslot⟩ | hbefore | ⟨v,hv,hwas⟩ |
      ⟨v,hv,hwas⟩ | hdropped
    · refine Or.inl ⟨other,List.mem_filter.mpr ⟨hother,decide_eq_true fun heq => hne ?_⟩,hloot,hslot⟩
      rw [←hloot,←hslot,List.inj_on_of_nodup_map h.distinct hother hroll heq]
    · exact Or.inr (Or.inl hbefore)
    · exact Or.inr (Or.inr (Or.inl ⟨v,hverdicts v hv,hwas⟩))
    · exact Or.inr (Or.inr (Or.inr (Or.inl ⟨v,hverdicts v hv,hwas⟩)))
    · exact Or.inr (Or.inr (Or.inr (Or.inr hdropped)))
  · exact Or.inr (Or.inr (hkept.imp_right Or.inl))

/-- A roll is written in its place. -/
theorem sound_putRoll (h : Sound s) (hroll : roll∈s.rolls) {new : Roll} (htallied : Tallied new)
    (habout : new.itemGUID=roll.itemGUID ∧ new.loot=roll.loot ∧ new.itemSlot=roll.itemSlot) :
    Sound (putRoll s new) ∧ new∈(putRoll s new).rolls := by
  have hlookup : lookup Roll.itemGUID new.itemGUID s.rolls=some roll :=
    habout.1 ▸ lookup_of_mem h.distinct hroll
  have hrolls : (putRoll s new).rolls=replace Roll.itemGUID new s.rolls := rfl
  have hpairs : (putRoll s new).rolls.map (fun roll => (roll.loot,roll.itemSlot))=
      s.rolls.map fun roll => (roll.loot,roll.itemSlot) := by
    rw [hrolls]
    exact map_replace _ h.distinct hlookup (by rw [habout.2.1,habout.2.2])
  have hin : new∈(putRoll s new).rolls := by
    rw [hrolls]
    exact (replace_perm h.distinct hlookup).symm.subset List.mem_cons_self
  refine ⟨⟨fun other hother => ?_,by rw [hpairs]; exact h.single,fun loot slot hat => ?_,h.fair,?_,
    fun other hother => ?_⟩,hin⟩
  · rcases mem_of_mem_replace hother with rfl | hold
    · exact htallied
    · exact h.tallied other hold
  · rcases h.blocked loot slot hat with ⟨other,hother,hloot,hslot⟩ | hkept
    · have hmem : (loot,slot)∈(putRoll s new).rolls.map fun roll => (roll.loot,roll.itemSlot) := by
        rw [hpairs]
        exact List.mem_map.mpr ⟨other,hother,by rw [hloot,hslot]⟩
      obtain ⟨found,hfound,heq⟩ := List.mem_map.mp hmem
      exact Or.inl ⟨found,hfound,(Prod.mk.inj heq).1,(Prod.mk.inj heq).2⟩
    · exact Or.inr hkept
  · rw [hrolls,map_key_replace]
    exact h.distinct
  · rcases mem_of_mem_replace hother with rfl | hold
    · rw [habout.2.1]
      exact h.given roll hroll
    · exact h.given other hold

theorem sound_announce (h : Sound s) (hroll : roll∈s.rolls) {loots : ℕ → Option Loot} {v : Verdict}
    (hfair : Fair v) (habout : v.roll=roll)
    (hblocked : ∀ loot slot,BlockedAt loots loot slot → BlockedAt s.loots loot slot ∧
      ((loot,slot)≠(roll.loot,roll.itemSlot) ∨ (v.winner=none ∧ v.isLFRGroup) ∨
        (v.winner.isSome ∧ v.present=false))) :
    Sound (eraseRoll { s with loots := loots, verdicts := s.verdicts++[v] } roll) := by
  have hlast : v∈s.verdicts++[v] := List.mem_append_right _ List.mem_cons_self
  refine sound_erase h hroll (fun _ hold => List.mem_append_left _ hold) (fun other hother => ?_)
    fun loot slot hat => ?_
  · rcases List.mem_append.mp hother with hold | hnew
    · exact h.fair other hold
    · rw [List.mem_singleton.mp hnew]
      exact hfair
  · obtain ⟨hbefore,hkept⟩ := hblocked loot slot hat
    refine ⟨hbefore,?_⟩
    by_cases hne : (loot,slot)=(roll.loot,roll.itemSlot)
    · obtain ⟨rfl,rfl⟩ := Prod.mk.inj hne
      rcases hkept with hother | hpassed | ⟨hwon,habsent⟩
      · exact absurd rfl hother
      · exact Or.inr (Or.inl ⟨v,hlast,by rw [habout],by rw [habout],hpassed⟩)
      · exact Or.inr (Or.inr ⟨v,hlast,by rw [habout],by rw [habout],hwon,habsent⟩)
    · exact Or.inl hne

theorem storeItem_frame (w : RollWorld) (s : GroupRolls) (roll : Roll) (player : UInt64) :
    storeItem w s roll player={ s with loots := (storeItem w s roll player).loots } := by
  unfold storeItem
  split
  · rfl
  · split <;> rfl

theorem best_wants {dice : UInt64 → ℕ} {votes : PlayerVote} (hdice : ∀ guid,0 < dice guid)
    (hpos : 0 < votesFor wants votes) :
    (best dice wants votes).2.2=.greed ∨ (best dice wants votes).2.2=.disenchant := by
  obtain ⟨vote,rfl,-,hwins,-⟩ := best_spec hdice (votesFor_pos.mp hpos)
  exact (wants_iff _).mp hwins

theorem playerVote_ne_nil {counts : RollVote → Bool} (h : 0 < votesFor counts roll.playerVote) :
    roll.playerVote≠[] := by
  obtain ⟨entry,hentry,-⟩ := votesFor_pos.mp h
  exact List.ne_nil_of_mem hentry

theorem sound_countTheRoll (w : RollWorld) (h : Sound s) (hroll : roll∈s.rolls) {timer : Bool}
    (hvoted : timer ∨ ∀ entry∈roll.playerVote,entry.2≠.notEmitedYet) :
    Sound (countTheRoll w s roll timer) := by
  have htallied := h.tallied roll hroll
  have hdice : ∀ guid,0 < (w.urand roll.itemGUID guid).val+1 := fun _ => Nat.succ_pos _
  have hsame : ∀ loot slot,BlockedAt s.loots loot slot → s.loots roll.loot=none →
      (loot,slot)≠(roll.loot,roll.itemSlot) := by
    rintro loot slot ⟨l,-,hl,-⟩ hgone heq
    rw [(Prod.mk.inj heq).1,hgone] at hl
    exact absurd hl (Option.some_ne_none l).symm
  unfold countTheRoll
  split
  · rename_i hgone
    exact sound_erase h hroll (fun _ hold => hold) h.fair fun loot slot hat =>
      ⟨hat,Or.inl (hsame loot slot hat (Option.isNone_iff_eq_none.mp hgone))⟩
  · dsimp only
    split
    · -- somebody needs it
      rename_i hneed
      have hpos : 0 < votesFor (fun vote => decide (vote=.need)) roll.playerVote :=
        htallied.need ▸ UInt8.lt_iff_toNat_lt.mp hneed
      rw [if_neg (playerVote_ne_nil hpos)]
      have hfair := fair_need htallied hvoted hdice hneed
      split
      · rename_i hpresent
        rw [storeItem_frame]
        exact sound_announce h hroll (hfair _ _) rfl fun _ _ hat =>
          (blockedAt_storeItem hat).imp_right Or.inl
      · rename_i habsent
        exact sound_announce h hroll (hfair _ _) rfl fun _ _ hat =>
          ⟨hat,Or.inr (Or.inr ⟨rfl,Bool.eq_false_of_not_eq_true habsent⟩)⟩
    · rename_i hneed
      split
      · -- somebody wants it
        rename_i hgreed
        have hpos : 0 < votesFor wants roll.playerVote :=
          htallied.greed ▸ UInt8.lt_iff_toNat_lt.mp hgreed
        rw [if_neg (playerVote_ne_nil hpos)]
        have hfair := fair_greed htallied hvoted hdice hneed hgreed
        have hwon := best_wants hdice hpos
        split
        · split
          · rw [storeItem_frame]
            exact sound_announce h hroll (hfair _ _) rfl fun _ _ hat =>
              (blockedAt_storeItem hat).imp_right Or.inl
          · rename_i hnot
            rw [if_pos (hwon.resolve_left hnot)]
            exact sound_announce h hroll (hfair _ _) rfl fun _ _ hat =>
              (blockedAt_takeItem hat).imp_right Or.inl
        · rename_i habsent
          exact sound_announce h hroll (hfair _ _) rfl fun _ _ hat =>
            ⟨hat,Or.inr (Or.inr ⟨rfl,Bool.eq_false_of_not_eq_true habsent⟩)⟩
      · -- all have passed
        rename_i hgreed
        have hfair : ∀ present lfr,Fair ⟨roll,timer,fun guid => (w.urand roll.itemGUID guid).val+1,
            none,present,lfr⟩ := fair_passed htallied hvoted hneed hgreed
        split
        · rename_i hlfr
          exact sound_announce h hroll (hfair _ _) rfl fun _ _ hat =>
            ⟨hat,Or.inr (Or.inl ⟨rfl,hlfr⟩)⟩
        · exact sound_announce h hroll (hfair _ _) rfl fun _ _ hat =>
            (blockedAt_unblockItem hat).imp_right Or.inl

theorem countTheRoll_rolls (w : RollWorld) (s : GroupRolls) (roll : Roll) (timer : Bool) :
    (countTheRoll w s roll timer).rolls=
      s.rolls.filter fun other => other.itemGUID≠roll.itemGUID := by
  have hstore := fun player => congrArg GroupRolls.rolls (storeItem_frame w s roll player)
  unfold countTheRoll eraseRoll
  dsimp only
  split
  · rfl
  split
  · split
    · rfl
    dsimp only
    split
    · rw [hstore]
    · rfl
  · split
    · split
      · rfl
      dsimp only
      split
      · split
        · rw [hstore]
        · split <;> rfl
      · rfl
    · dsimp only
      split <;> rfl

theorem eraseRoll_of_mem {other : Roll} (hother : other∈s.rolls)
    (hne : other.itemGUID≠roll.itemGUID) (w : RollWorld) (timer : Bool) :
    other∈(countTheRoll w s roll timer).rolls := by
  rw [countTheRoll_rolls]
  exact List.mem_filter.mpr ⟨hother,decide_eq_true hne⟩

theorem sound_countRollVote (w : RollWorld) (h : Sound s) {guid : UInt64} {itemGUID : ℕ}
    {choice : UInt8} (hfirst : choice < MAX_ROLL_TYPE → ∀ roll∈s.rolls,roll.itemGUID=itemGUID →
      ∀ entry∈roll.playerVote,entry.1=guid → entry.2=.notEmitedYet) :
    Sound (countRollVote w s guid itemGUID choice) := by
  unfold countRollVote
  split
  · exact h
  rename_i roll hget
  have hroll : roll∈s.rolls := List.mem_of_find?_eq_some hget
  have hguid : roll.itemGUID=itemGUID := by
    have hfound := List.find?_some hget
    rw [Bool.and_eq_true] at hfound
    exact of_decide_eq_true hfound.1
  split
  · exact h
  rename_i hvoter
  split
  · exact h
  split
  · exact h
  have hcounted : Tallied (countChoice roll guid choice) := by
    refine tallied_countChoice (h.tallied roll hroll) fun hchoice => ?_
    have hsome : ∃ entry∈roll.playerVote,entry.1=guid := by
      by_contra hno
      refine hvoter (List.all_eq_true.mpr fun entry hentry => decide_eq_true fun heq => ?_)
      exact hno ⟨entry,hentry,heq⟩
    obtain ⟨⟨player,v⟩,hentry,rfl⟩ := hsome
    obtain rfl : v=.notEmitedYet := hfirst hchoice roll hroll hguid _ hentry rfl
    exact lookup_of_mem (h.tallied roll hroll).players hentry
  obtain ⟨hput,hin⟩ := sound_putRoll h hroll hcounted (countChoice_about roll guid choice)
  dsimp only
  split
  · rename_i hall
    refine sound_countTheRoll w hput hin (Or.inr fun entry hentry heq => ?_)
    have hsplit := votes_split hcounted.valid
    rw [←hcounted.pass,←hcounted.need,←hcounted.greed,←hcounted.rolling] at hsplit
    have hwaiting : votesFor (fun vote => decide (vote=.notEmitedYet))
        (countChoice roll guid choice).playerVote=0 := by omega
    exact votesFor_eq_zero.mp hwaiting entry hentry (decide_eq_true heq)
  · exact hput

theorem countRollVote_absent (w : RollWorld) (s : GroupRolls) (guid : UInt64) (itemGUID : ℕ)
    (choice : UInt8) (habsent : ∀ roll∈s.rolls,roll.itemGUID=itemGUID →
      ∀ entry∈roll.playerVote,entry.1≠guid) : countRollVote w s guid itemGUID choice=s := by
  unfold countRollVote
  split
  · rfl
  rename_i roll hget
  have hfound := List.find?_some hget
  rw [Bool.and_eq_true] at hfound
  exact if_pos (List.all_eq_true.mpr fun entry hentry => decide_eq_true
    (habsent roll (List.mem_of_find?_eq_some hget) (of_decide_eq_true hfound.1) entry hentry))

theorem sound_endRoll (w : RollWorld) (h : Sound s) (loot : ℕ) : Sound (endRoll w s loot) := by
  have hfold : ∀ (rolls : List Roll) (s : GroupRolls),Sound s → (rolls.map Roll.itemGUID).Nodup →
      (∀ roll∈rolls,roll∈s.rolls) →
      Sound (rolls.foldl (fun s roll => countTheRoll w s roll true) s) := by
    intro rolls
    induction rolls with
    | nil => exact fun s h _ _ => h
    | cons roll rolls ih =>
      intro s h hnodup hrolls
      obtain ⟨hfirst,hrest⟩ := List.nodup_cons.mp hnodup
      refine ih _ (sound_countTheRoll w h (hrolls roll List.mem_cons_self) (Or.inl rfl)) hrest
        fun other hother => ?_
      refine eraseRoll_of_mem (hrolls other (List.mem_cons_of_mem _ hother)) (fun heq => ?_) w true
      exact hfirst (heq ▸ List.mem_map_of_mem hother)
  unfold endRoll
  split
  · exact h
  · exact hfold _ s h (h.distinct.sublist (List.filter_sublist.map _)) fun roll hroll =>
      List.mem_of_mem_filter hroll

/-- A member leaves the rolls it takes part in. -/
theorem sound_leaveRolls (w : RollWorld) (h : Sound s) (guid : UInt64) :
    Sound (leaveRolls w s guid) := by
  have hfold : ∀ (rolls : List Roll) (s : GroupRolls),Sound s → (rolls.map Roll.itemGUID).Nodup →
      (∀ roll∈rolls,roll∈s.rolls) →
      Sound (rolls.foldl (fun s roll =>
        if roll.playerVote.any fun entry => entry.1=guid then
          countRollVote w (putRoll s (leaveRoll guid roll)) guid roll.itemGUID MAX_ROLL_TYPE
        else s) s) := by
    intro rolls
    induction rolls with
    | nil => exact fun s h _ _ => h
    | cons roll rolls ih =>
      intro s h hnodup hrolls
      obtain ⟨hfirst,hrest⟩ := List.nodup_cons.mp hnodup
      have hroll := hrolls roll List.mem_cons_self
      have hlater := fun other hother => hrolls other (List.mem_cons_of_mem _ hother)
      rw [List.foldl_cons]
      split
      · have habout := leaveRoll_about guid roll
        obtain ⟨hput,hin⟩ := sound_putRoll h hroll (tallied_leaveRoll (h.tallied roll hroll) guid)
          habout
        rw [countRollVote_absent]
        · refine ih _ hput hrest fun other hother => ?_
          refine mem_replace_of_ne (hlater other hother) fun heq => hfirst ?_
          rw [←habout.1,←heq]
          exact List.mem_map_of_mem hother
        · intro other hother heq
          rw [List.inj_on_of_nodup_map hput.distinct hother hin (heq.trans habout.1.symm)]
          exact leaveRoll_gone guid roll
      · exact ih s h hrest hlater
  exact hfold s.rolls s h h.distinct fun _ hroll => hroll

/-- A group that is disbanded drops its rolls. -/
theorem sound_disband (h : Sound s) : Sound (disband s) := by
  refine ⟨fun _ hroll => (by cases hroll),List.nodup_nil,fun loot slot hat => ?_,h.fair,
    List.nodup_nil,fun _ hroll => (by cases hroll)⟩
  rcases h.blocked loot slot hat with ⟨roll,hroll,habout⟩ | hbefore | hpassed | hwon |
    ⟨roll,hroll,habout⟩
  · exact Or.inr (Or.inr (Or.inr (Or.inr ⟨roll,List.mem_append_right _ hroll,habout⟩)))
  · exact Or.inr (Or.inl hbefore)
  · exact Or.inr (Or.inr (Or.inl hpassed))
  · exact Or.inr (Or.inr (Or.inr (Or.inl hwon)))
  · exact Or.inr (Or.inr (Or.inr (Or.inr ⟨roll,List.mem_append_left _ hroll,habout⟩)))

/-- The group itself changes as if it had no rolls. -/
theorem group_changeGroup (w : RollWorld) (s : GroupRolls) (op : GroupModel.Op) :
    (changeGroup w s op).group=GroupModel.step s.group op := by
  unfold changeGroup GroupModel.step
  cases hgroup : s.group with
  | none => exact hgroup
  | some g =>
    dsimp only [Option.bind_some]
    cases GroupModel.apply g op <;> rfl

/-- A group that changes keeps its rolls right, or is disbanded. -/
theorem sound_changeGroup (w : RollWorld) (h : Sound s) (op : GroupModel.Op) :
    Sound (changeGroup w s op) := by
  unfold changeGroup
  split
  · exact h
  rename_i g _
  extract_lets left
  have hleft : Sound left := by
    dsimp only [left]
    cases leavesRolls g op with
    | none => exact h
    | some guid => exact sound_leaveRolls w h guid
  split
  · exact sound_disband hleft
  · exact ⟨hleft.tallied,hleft.single,hleft.blocked,hleft.fair,hleft.distinct,hleft.given⟩

end States

/-- The rolls for the items of a loot before a slot have been started. -/
structure Rolling (s : GroupRolls) (loot slot : ℕ) : Prop where
  /-- The rolls are right so far. -/
  sound : Sound s
  known : loot < s.nextLoot
  below : ∀ roll∈s.rolls,roll.loot=loot → roll.itemSlot < slot

section Starts
variable {s : GroupRolls} {loot slot : ℕ}

theorem Rolling.next (h : Rolling s loot slot) : Rolling s loot (slot+1) :=
  ⟨h.sound,h.known,fun roll hroll hloot => Nat.lt_succ_of_lt (h.below roll hroll hloot)⟩

/-- An item that is written without a change to its flags leaves the rolls right. -/
theorem Rolling.writeItem (h : Rolling s loot slot) {f : LootItem → LootItem}
    (hflags : ∀ item,(f item).is_blocked=item.is_blocked ∧ (f item).is_looted=item.is_looted) :
    Rolling (writeItem s loot slot f) loot (slot+1) := by
  refine ⟨⟨h.sound.tallied,h.sound.single,fun loot' slot' hat => ?_,h.sound.fair,h.sound.distinct,
    h.sound.given⟩,h.known,h.next.below⟩
  rcases blockedAt_writeItem hat with ⟨hbefore,-⟩ | ⟨heq,l,item,hl,hitem,hblocked,hlooted⟩
  · exact h.sound.blocked loot' slot' hbefore
  · obtain ⟨rfl,rfl⟩ := Prod.mk.inj heq
    exact h.sound.blocked loot' slot'
      ⟨l,item,hl,hitem,(hflags item).1 ▸ hblocked,(hflags item).2 ▸ hlooted⟩

theorem Rolling.startRoll (h : Rolling s loot slot) (w : LootWorld) (autoPass : Bool)
    (item : LootItem) : Rolling (startRoll w autoPass loot slot item s) loot (slot+1) := by
  have hunused := w.unused (s.rolls.map Roll.itemGUID) slot
  unfold GroupLootModel.startRoll
  dsimp only
  generalize w.itemGuid (s.rolls.map Roll.itemGUID) slot=itemGUID at hunused ⊢
  obtain ⟨hguid,hloot,hslot⟩ := newRoll_about w autoPass itemGUID loot slot item
  have htallied := tallied_newRoll w autoPass itemGUID loot slot item
  generalize newRoll w autoPass itemGUID loot slot item=new at hguid hloot hslot htallied ⊢
  split
  · have hnew : ∀ roll∈s.rolls++[new],roll∈s.rolls ∨ roll=new := fun roll hroll =>
      (List.mem_append.mp hroll).imp_right List.mem_singleton.mp
    refine ⟨⟨fun roll hroll => ?_,?_,fun loot' slot' hat => ?_,h.sound.fair,?_,fun roll hroll => ?_⟩,
      h.known,fun roll hroll hat => ?_⟩
    · rcases hnew roll hroll with hold | rfl
      · exact h.sound.tallied roll hold
      · exact htallied
    · rw [List.map_append,List.map_singleton]
      refine List.nodup_append'.mpr ⟨h.sound.single,List.nodup_singleton _,?_⟩
      rw [List.disjoint_singleton,List.mem_map]
      rintro ⟨roll,hroll,heq⟩
      obtain ⟨hsame,hplace⟩ := Prod.mk.inj heq
      have hlt := h.below roll hroll (hsame.trans hloot)
      omega
    · rcases blockedAt_writeItem hat with ⟨hbefore,-⟩ | ⟨heq,-⟩
      · rcases h.sound.blocked loot' slot' hbefore with ⟨roll,hroll,hrest⟩ | hkept
        · exact Or.inl ⟨roll,List.mem_append_left _ hroll,hrest⟩
        · exact Or.inr hkept
      · obtain ⟨rfl,rfl⟩ := Prod.mk.inj heq
        exact Or.inl ⟨new,List.mem_append_right _ List.mem_cons_self,hloot,hslot⟩
    · rw [List.map_append,List.map_singleton]
      refine List.nodup_append'.mpr ⟨h.sound.distinct,List.nodup_singleton _,?_⟩
      rw [List.disjoint_singleton,hguid]
      exact hunused
    · rcases hnew roll hroll with hold | rfl
      · exact h.sound.given roll hold
      · exact hloot.trans_lt h.known
    · rcases hnew roll hroll with hold | rfl
      · exact h.next.below roll hold hat
      · exact hslot.trans_lt (Nat.lt_succ_self _)
  · exact h.next

theorem Rolling.rollItem (h : Rolling s loot slot) (w : LootWorld) (item : LootItem) :
    Rolling (rollItem w loot s (item,slot)) loot (slot+1) := by
  unfold GroupLootModel.rollItem
  split
  · exact h.next
  split
  · exact h.next
  · split
    · exact h.startRoll w true item
    · exact h.writeItem fun _ => ⟨rfl,rfl⟩

theorem Rolling.rollQuestItem (h : Rolling s loot slot) (w : LootWorld) (item : LootItem) :
    Rolling (rollQuestItem w loot s (item,slot)) loot (slot+1) := by
  unfold GroupLootModel.rollQuestItem
  split
  · exact h.next
  · split
    · exact h.next
    · exact h.startRoll w false item

theorem rolling_foldl {roll : GroupRolls → LootItem×ℕ → GroupRolls}
    (hroll : ∀ s slot item,Rolling s loot slot → Rolling (roll s (item,slot)) loot (slot+1))
    (items : List LootItem) (h : Rolling s loot slot) :
    Rolling ((items.zipIdx slot).foldl roll s) loot (slot+items.length) := by
  induction items generalizing s slot with
  | nil => exact h
  | cons item items ih =>
    rw [List.zipIdx_cons,List.foldl_cons,List.length_cons,Nat.add_comm items.length,←Nat.add_assoc]
    exact ih (hroll s slot item h)

/-- A loot that has just been filled comes in. -/
theorem sound_groupLoot (h : Sound s) (w : LootWorld) (loot : Loot) :
    Sound (groupLoot w s loot) := by
  have hplaced : Rolling
      { s with
        loots := Function.update s.loots s.nextLoot (some loot)
        filled := Function.update s.filled s.nextLoot (some loot)
        nextLoot := s.nextLoot+1 } s.nextLoot 0 := by
    refine ⟨⟨h.tallied,h.single,?_,h.fair,h.distinct,fun roll hroll =>
      Nat.lt_succ_of_lt (h.given roll hroll)⟩,Nat.lt_succ_self _,
      fun roll hroll heq => absurd (h.given roll hroll) (heq ▸ Nat.lt_irrefl _)⟩
    rintro id slot ⟨l,item,hl,hitem,hblocked,hlooted⟩
    dsimp only at hl
    by_cases hid : id=s.nextLoot
    · subst hid
      rw [Function.update_self] at hl
      exact Or.inr (Or.inl ⟨l,item,(Function.update_self _ _ _).trans hl,hitem,hblocked⟩)
    · rw [Function.update_of_ne hid] at hl
      rcases h.blocked id slot ⟨l,item,hl,hitem,hblocked,hlooted⟩ with hroll |
        ⟨before,old,hbefore,hold⟩ | hkept
      · exact Or.inl hroll
      · exact Or.inr (Or.inl
          ⟨before,old,(Function.update_of_ne hid _ _).trans hbefore,hold⟩)
      · exact Or.inr (Or.inr hkept)
  have hitems := rolling_foldl (fun _ _ item h => h.rollItem w item) loot.items hplaced
  rw [Nat.zero_add] at hitems
  exact (rolling_foldl (fun _ _ item h => h.rollQuestItem w item) loot.quest_items hitems).sound

/-- A loot that is cleared blocks nothing. -/
theorem sound_removeLoot (h : Sound s) (loot : ℕ) :
    Sound { s with loots := Function.update s.loots loot none } := by
  refine ⟨h.tallied,h.single,?_,h.fair,h.distinct,h.given⟩
  rintro id slot ⟨l,item,hl,hrest⟩
  dsimp only at hl
  by_cases hid : id=loot
  · rw [hid,Function.update_self] at hl
    exact absurd hl (Option.some_ne_none l).symm
  · rw [Function.update_of_ne hid] at hl
    exact h.blocked id slot ⟨l,item,hl,hrest⟩

end Starts

/-- A player that votes has not voted on the roll before. -/
def FirstVote (s : GroupRolls) : Op → Prop
  | .countRollVote _ playerGUID itemGUID choice =>
    choice < MAX_ROLL_TYPE → ∀ roll∈s.rolls,roll.itemGUID=itemGUID →
      ∀ entry∈roll.playerVote,entry.1=playerGUID → entry.2=.notEmitedYet
  | _ => True

/-- Each operation keeps the rolls right. -/
theorem sound_step (s : GroupRolls) (op : Op) (h : Sound s) (hfirst : FirstVote s op) :
    Sound (step s op) := by
  cases op with
  | groupLoot w loot | needBeforeGreed w loot =>
    dsimp only [step]
    split
    · exact sound_groupLoot h w loot
    · exact h
  | countRollVote w playerGUID itemGUID choice => exact sound_countRollVote w h hfirst
  | changeGroup w op => exact sound_changeGroup w h op
  | disband => exact sound_disband h
  | endRoll w loot => exact sound_endRoll w h loot
  | removeLoot loot => exact sound_removeLoot h loot

theorem sound_noRolls (group : GroupModel.Group) : Sound (noRolls group) := by
  refine ⟨fun _ h => (by cases h),List.nodup_nil,?_,fun _ h => (by cases h),List.nodup_nil,
    fun _ h => (by cases h)⟩
  rintro loot slot ⟨l,item,hl,-⟩
  exact absurd hl (Option.some_ne_none l).symm

/-- In every run in which nobody votes twice on one roll, the counters of each roll are
those of its votes, each outcome is fair, and each item that is blocked has its one roll
unless it was blocked before, an LFR group has passed on it, its winner was not there or its
roll was dropped when the group was disbanded. -/
theorem group_loot_rolls (group : GroupModel.Group) {ops : List Op}
    (h : Meets step FirstVote (noRolls group) ops) : Sound (run step (noRolls group) ops) :=
  run_invariant sound_step (sound_noRolls group) h

/-- Three members roll for the items of a loot. -/
def three : LootWorld :=
  { quality := fun _ => some 4
    lootThreshold := 2
    members := [1,2,3]
    distinct := by decide
    size := by decide
    allowed := fun _ _ => true
    near := fun _ => true
    passOnGroupLoot := fun _ => false
    itemGuid := fun guids _ => guids.sum+1
    unused := fun guids _ hguid =>
      absurd (List.single_le_sum (fun _ _ => Nat.zero_le _) _ hguid) (Nat.not_succ_le_self _) }

/-- Everybody is there; the second member rolls more. -/
def present : RollWorld :=
  { findPlayer := fun _ => true
    hasPendingBind := fun _ => false
    canStoreNewItem := fun _ _ _ => true
    urand := fun _ guid => if guid=2 then 98 else 10 }

/-- A loot with one item. -/
def oneItem : Loot :=
  { items :=
      [{ itemid := 19019, count := 1, freeforall := false, follow_loot_rules := false,
         is_looted := false, is_blocked := false, is_underthreshold := false }]
    quest_items := []
    unlootedCount := 1 }

/-- A player is somewhere in the world, and leaves the group. -/
def leave (guid : UInt64) : Op :=
  .changeGroup present (.removeMember ⟨fun _ => true,fun _ => true,fun _ => 0,0⟩ guid .leave)

/-- Of three members that roll for two items one leaves; the others both need the first item. The
group is disbanded before they have voted on the second one. -/
def twoNeed : List Op :=
  [.changeGroup present (.addMember 2),.changeGroup present (.addMember 3),
    .groupLoot three oneItem,.groupLoot three oneItem,.countRollVote present 1 1 1,leave 3,
    .countRollVote present 2 1 1,leave 2]

theorem group_loot_rolls_needed :
    let s := run step (noRolls (GroupModel.start 1 .normal)) twoNeed
    s.verdicts.map Verdict.winner=[some 2] ∧ s.dropped.map Roll.loot=[1] ∧ s.group.isNone ∧
      BlockedAt s.loots 1 0 ∧ Sound s := by
  refine ⟨by decide,by decide,by decide,⟨_,_,rfl,rfl,rfl,rfl⟩,group_loot_rolls _ ?_⟩
  exact ⟨trivial,trivial,trivial,trivial,fun _ => by decide,trivial,fun _ => by decide,trivial,
    trivial⟩

/-- The members of an LFR group pass on an item: it stays blocked, without a roll. -/
theorem passed_stays_blocked :
    let s := run step (noRolls (GroupModel.start 1 .raidFinder))
      [.changeGroup present (.addMember 2),.changeGroup present (.addMember 3),
        .groupLoot three oneItem,.countRollVote present 1 1 0,.countRollVote present 2 1 0,
        .countRollVote present 3 1 0]
    BlockedAt s.loots 0 0 ∧ s.rolls=[] ∧ (∀ item∈oneItem.items,item.is_blocked=false) :=
  ⟨⟨_,_,rfl,rfl,rfl,rfl⟩,by decide,by decide⟩

end Projectnelth.GroupLootModel
