import Mathlib
import Projectnelth.KeyedList
import Projectnelth.QuestPoolModel

/-!
# Rotation of quest pools

Spawning a pool changes the activity of its own quests only, and counts them. This rests on what
it recycles: the active quests it draws from are those of all pools.
-/

namespace Projectnelth.QuestPoolModel

open RunInvariant

/-- The number of active quests of a pool. -/
def PoolGroup.active (group : PoolGroup) (spawns : ActivePoolData) : ℕ :=
  group.EqualChanced.countP spawns.IsActiveObject

/-- What is to hold of the quest pools. -/
structure Orderly (cfg : PoolConfig) (spawns : ActivePoolData) : Prop where
  members : ∀ x∈spawns.activated, ∃ group∈cfg.mPoolQuestGroups,
    group.poolId=x.2 ∧ x.1∈group.EqualChanced
  /-- The active quests of a pool are counted. -/
  counted : ∀ group∈cfg.mPoolQuestGroups,
    spawns.mSpawnedPools group.poolId=group.active spawns
  /-- There are no more of them than may be. -/
  bounded : ∀ group∈cfg.mPoolQuestGroups, group.active spawns ≤ group.MaxLimit

/-- Spawning a pool leaves the active quests of the others as they are. -/
def KeepsOthers (cfg : PoolConfig) (rows : ℕ → List ℕ) (s : State) (a : PoolGroup×ℕ) : Prop :=
  ∀ other∈cfg.mPoolQuestGroups, other≠a.1 → ∀ quest∈other.EqualChanced,
    (SpawnPool rows s a).spawns.IsActiveObject quest=s.spawns.IsActiveObject quest

/-- What was saved for a pool are quests of it, each once. -/
def Saved (cfg : PoolConfig) (rows : ℕ → List ℕ) : Prop :=
  ∀ group∈cfg.mPoolQuestGroups, (rows group.poolId).Nodup ∧
    ∀ quest∈rows group.poolId, quest∈group.EqualChanced

/-- The pool is read from what was saved, has quests enough that are not active, or has all the
quests that are active. -/
def Fits (rows : ℕ → List ℕ) (s : State) (a : PoolGroup×ℕ) : Prop :=
  a.1.EqualChanced=[] ∨ (a.2=0 ∧ rows a.1.poolId≠[]) ∨
    a.1.MaxLimit ≤ a.1.EqualChanced.countP (fun quest => !s.spawns.IsActiveObject quest) ∨
    ∀ quest∈s.spawns.mActiveQuests, quest∈a.1.EqualChanced

instance (rows : ℕ → List ℕ) (s : State) (a : PoolGroup×ℕ) : Decidable (Fits rows s a) := by
  unfold Fits
  infer_instance

theorem mem_insertQuest {quest other : ℕ} {quests : List ℕ} :
    other∈insertQuest quest quests ↔ other=quest ∨ other∈quests := by
  unfold insertQuest
  split_ifs with h
  · exact ⟨Or.inr,fun hother => hother.elim (fun heq => heq ▸ h) id⟩
  · exact List.mem_orderedInsert _

theorem nodup_insertQuest {quest : ℕ} {quests : List ℕ} (h : quests.Nodup) :
    (insertQuest quest quests).Nodup := by
  unfold insertQuest
  split_ifs with hmem
  · exact h
  · exact (List.perm_orderedInsert _ quest quests).nodup_iff.mpr (List.nodup_cons.mpr ⟨hmem,h⟩)

theorem length_insertQuest {quest : ℕ} {quests : List ℕ} (h : quest∉quests) :
    (insertQuest quest quests).length=quests.length+1 := by
  unfold insertQuest
  rw [if_neg h,List.orderedInsert_length]

/-- What is drawn from a set that is not empty is one of it. -/
theorem select_mem {rolls container : List ℕ} (h : container≠[]) :
    SelectRandomContainerElement rolls container∈container := by
  have hlt : rolls.headD 0%container.length < container.length :=
    Nat.mod_lt _ (List.length_pos_of_ne_nil h)
  unfold SelectRandomContainerElement
  rw [List.getD_eq_getElem?_getD,List.getElem?_eq_getElem hlt]
  exact List.getElem_mem hlt

namespace ActivePoolData

variable {spawns : ActivePoolData} {quest other pool_id : ℕ}

theorem isActive_ActivateObject :
    (spawns.ActivateObject quest pool_id).IsActiveObject other=
      (decide (other=quest) || spawns.IsActiveObject other) := by
  unfold IsActiveObject ActivateObject
  rw [← Bool.decide_or]
  exact decide_eq_decide.mpr mem_insertQuest

theorem isActive_RemoveObject (h : spawns.mActiveQuests.Nodup) :
    (spawns.RemoveObject quest pool_id).IsActiveObject other=
      (!decide (other=quest) && spawns.IsActiveObject other) := by
  unfold IsActiveObject RemoveObject
  rw [← decide_not,← Bool.decide_and]
  exact decide_eq_decide.mpr h.mem_erase_iff

end ActivePoolData

/-- The activity changes at most for the quests of a pool. -/
def Within (group : PoolGroup) (spawns spawns' : ActivePoolData) : Prop :=
  ∀ quest, quest∉group.EqualChanced →
    spawns'.IsActiveObject quest=spawns.IsActiveObject quest

theorem Within.trans {group : PoolGroup} {s t u : ActivePoolData} (h : Within group s t)
    (h' : Within group t u) : Within group s u :=
  fun quest hquest => (h' quest hquest).trans (h quest hquest)

section Counting

variable {cfg : PoolConfig} {group : PoolGroup} {spawns spawns' : ActivePoolData} {quest : ℕ}

theorem Within.active_eq (h : Within group spawns spawns')
    (hgroup : group∈cfg.mPoolQuestGroups) {other : PoolGroup}
    (hother : other∈cfg.mPoolQuestGroups) (hne : other≠group) :
    other.active spawns'=other.active spawns :=
  List.countP_congr fun quest hquest => by
    rw [h quest fun hmem => hne (cfg.apart other hother group hgroup quest hquest hmem)]

/-- The quests are activated for their pools and counted. -/
structure Counted (cfg : PoolConfig) (spawns : ActivePoolData) : Prop where
  members : ∀ x∈spawns.activated, ∃ group∈cfg.mPoolQuestGroups,
    group.poolId=x.2 ∧ x.1∈group.EqualChanced
  counted : ∀ group∈cfg.mPoolQuestGroups,
    spawns.mSpawnedPools group.poolId=group.active spawns
  nodup : spawns.mActiveQuests.Nodup

theorem Counted.activate (h : Counted cfg spawns) (hgroup : group∈cfg.mPoolQuestGroups)
    (hquest : quest∈group.EqualChanced) (hoff : spawns.IsActiveObject quest=false) :
    Counted cfg (spawns.ActivateObject quest group.poolId) ∧
      group.active (spawns.ActivateObject quest group.poolId)=group.active spawns+1 ∧
      Within group spawns (spawns.ActivateObject quest group.poolId) := by
  have hwithin : Within group spawns (spawns.ActivateObject quest group.poolId) :=
    fun other hother => by
      have hne : other≠quest := fun heq => hother (heq ▸ hquest)
      rw [ActivePoolData.isActive_ActivateObject,decide_eq_false hne,Bool.false_or]
  have hself : group.active (spawns.ActivateObject quest group.poolId)=group.active spawns+1 := by
    refine KeyedList.countP_add_one (cfg.once group hgroup) hquest hoff ?_ fun other hne => ?_
    · rw [ActivePoolData.isActive_ActivateObject,decide_eq_true rfl,Bool.true_or]
    · rw [ActivePoolData.isActive_ActivateObject,decide_eq_false hne,Bool.false_or]
  refine ⟨⟨fun x hx => ?_,fun other hother => ?_,nodup_insertQuest h.nodup⟩,hself,hwithin⟩
  · rcases List.mem_cons.mp hx with rfl | hx
    · exact ⟨group,hgroup,rfl,hquest⟩
    · exact h.members x hx
  · by_cases heq : other=group
    · rw [heq,hself,← h.counted group hgroup]
      exact Function.update_self ..
    · rw [hwithin.active_eq hgroup hother heq,← h.counted other hother]
      exact Function.update_of_ne (fun hid => heq (cfg.ids other hother group hgroup hid)) ..

theorem Counted.remove (h : Counted cfg spawns) (hgroup : group∈cfg.mPoolQuestGroups)
    (hquest : quest∈group.EqualChanced) (hon : spawns.IsActiveObject quest=true) :
    Counted cfg (spawns.RemoveObject quest group.poolId) ∧
      Within group spawns (spawns.RemoveObject quest group.poolId) := by
  have hwithin : Within group spawns (spawns.RemoveObject quest group.poolId) :=
    fun other hother => by
      have hne : other≠quest := fun heq => hother (heq ▸ hquest)
      rw [ActivePoolData.isActive_RemoveObject h.nodup,decide_eq_false hne,Bool.not_false,
        Bool.true_and]
  have hself : group.active spawns=group.active (spawns.RemoveObject quest group.poolId)+1 := by
    refine KeyedList.countP_add_one (cfg.once group hgroup) hquest ?_ hon fun other hne => ?_
    · rw [ActivePoolData.isActive_RemoveObject h.nodup,decide_eq_true rfl]
      rfl
    · rw [ActivePoolData.isActive_RemoveObject h.nodup,decide_eq_false hne,Bool.not_false,
        Bool.true_and]
  refine ⟨⟨h.members,fun other hother => ?_,h.nodup.erase quest⟩,hwithin⟩
  by_cases heq : other=group
  · have hcount := h.counted group hgroup
    rw [heq]
    refine (Function.update_self ..).trans ?_
    omega
  · rw [hwithin.active_eq hgroup hother heq,← h.counted other hother]
    exact Function.update_of_ne (fun hid => heq (cfg.ids other hother group hgroup hid)) ..

/-- The loop that clears the pool, over some of its quests. -/
theorem Counted.despawnLoop (hgroup : group∈cfg.mPoolQuestGroups) {quests : List ℕ}
    (hquests : ∀ quest∈quests, quest∈group.EqualChanced) :
    ∀ {spawns : ActivePoolData}, Counted cfg spawns →
      Counted cfg (despawnLoop group.poolId quests spawns) ∧
      Within group spawns (despawnLoop group.poolId quests spawns) ∧
      ∀ quest, spawns.IsActiveObject quest=false ∨ quest∈quests →
        (despawnLoop group.poolId quests spawns).IsActiveObject quest=false := by
  induction quests with
  | nil => exact fun h => ⟨h,fun _ _ => rfl,fun _ hquest => hquest.resolve_right (fun h => by cases h)⟩
  | cons first quests ih =>
    intro spawns h
    have hfirst := hquests first (List.mem_cons_self ..)
    have hstep : Counted cfg (if spawns.IsActiveObject first then
          spawns.RemoveObject first group.poolId else spawns) ∧
        Within group spawns (if spawns.IsActiveObject first then
          spawns.RemoveObject first group.poolId else spawns) ∧
        ∀ quest, spawns.IsActiveObject quest=false ∨ quest=first →
          (if spawns.IsActiveObject first then spawns.RemoveObject first group.poolId
            else spawns).IsActiveObject quest=false := by
      split_ifs with hon
      · obtain ⟨hcounted,hwithin⟩ := h.remove hgroup hfirst hon
        refine ⟨hcounted,hwithin,fun quest hquest => ?_⟩
        rw [ActivePoolData.isActive_RemoveObject h.nodup]
        rcases hquest with hquest | rfl
        · rw [hquest,Bool.and_false]
        · rw [decide_eq_true rfl]
          rfl
      · refine ⟨h,fun _ _ => rfl,fun quest hquest => ?_⟩
        rcases hquest with hquest | rfl
        · exact hquest
        · exact Bool.eq_false_iff.mpr hon
    obtain ⟨hcounted,hwithin,hoff⟩ := ih (fun quest hquest =>
      hquests quest (List.mem_cons_of_mem _ hquest)) hstep.1
    refine ⟨hcounted,hstep.2.1.trans hwithin,fun quest hquest => hoff quest ?_⟩
    rcases hquest with hquest | hquest
    · exact Or.inl (hstep.2.2 quest (Or.inl hquest))
    · rcases List.mem_cons.mp hquest with heq | hquest
      · exact Or.inl (hstep.2.2 quest (Or.inr heq))
      · exact Or.inr hquest

/-- What spawning does to the pool, up to a limit. -/
structure Spawned (cfg : PoolConfig) (group : PoolGroup) (limit : ℕ)
    (spawns spawns' : ActivePoolData) : Prop where
  counted : Counted cfg spawns'
  /-- Up to so many are active in addition. -/
  bounded : group.active spawns' ≤ group.active spawns+limit
  /-- Only quests of the pool change. -/
  within : Within group spawns spawns'

theorem Counted.spawned (h : Counted cfg spawns) (limit : ℕ) :
    Spawned cfg group limit spawns spawns :=
  ⟨h,Nat.le_add_right ..,fun _ _ => rfl⟩

theorem Spawned.cons {limit : ℕ} (h : Counted cfg spawns) (hgroup : group∈cfg.mPoolQuestGroups)
    (hquest : quest∈group.EqualChanced) (hoff : spawns.IsActiveObject quest=false)
    (hs : Spawned cfg group limit (spawns.ActivateObject quest group.poolId) spawns') :
    Spawned cfg group (limit+1) spawns spawns' := by
  obtain ⟨_,hactive,hwithin⟩ := h.activate hgroup hquest hoff
  refine ⟨hs.counted,?_,hwithin.trans hs.within⟩
  have hle := hs.bounded
  omega

/-- Quests that are to be activated: some of the pool that are not active, each once. -/
structure Fresh (group : PoolGroup) (spawns : ActivePoolData) (quests : List ℕ) : Prop where
  /-- Each stands there once. -/
  nodup : quests.Nodup
  /-- They belong to the pool. -/
  mem : ∀ quest∈quests, quest∈group.EqualChanced
  off : ∀ quest∈quests, spawns.IsActiveObject quest=false

theorem Fresh.activate {quests : List ℕ} (h : Fresh group spawns quests) (quest pool_id : ℕ) :
    Fresh group (spawns.ActivateObject quest pool_id) (quests.erase quest) where
  nodup := h.nodup.erase quest
  mem other hother := h.mem other (List.mem_of_mem_erase hother)
  off other hother := by
    obtain ⟨hne,hmem⟩ := h.nodup.mem_erase_iff.mp hother
    rw [ActivePoolData.isActive_ActivateObject,decide_eq_false hne,h.off other hmem]
    rfl

theorem Counted.loadLoop (hgroup : group∈cfg.mPoolQuestGroups) :
    ∀ {rows : List ℕ} {limit : ℕ} {spawns : ActivePoolData}, Counted cfg spawns →
      Fresh group spawns rows →
      Spawned cfg group limit spawns (loadLoop group.poolId rows limit spawns)
  | [],_,_,h,_ => h.spawned _
  | _::_,0,_,h,_ => h.spawned _
  | quest::rows,limit+1,spawns,h,hfresh => by
    have hmem := hfresh.mem quest (List.mem_cons_self ..)
    have hoff := hfresh.off quest (List.mem_cons_self ..)
    refine Spawned.cons h hgroup hmem hoff ?_
    have hnext := hfresh.activate quest group.poolId
    rw [List.erase_cons_head] at hnext
    exact Counted.loadLoop hgroup (h.activate hgroup hmem hoff).1 hnext

theorem Counted.activateLoop (hgroup : group∈cfg.mPoolQuestGroups) :
    ∀ {limit : ℕ} {newQuests : List ℕ} {s : State}, Counted cfg s.spawns → newQuests≠[] →
      Fresh group s.spawns newQuests →
      Spawned cfg group limit s.spawns (activateLoop group.poolId limit newQuests s).spawns
  | 0,_,_,h,_,_ => h.spawned _
  | limit+1,newQuests,s,h,hne,hfresh => by
    have hdrawn := @select_mem s.rolls _ hne
    have hmem := hfresh.mem _ hdrawn
    have hoff := hfresh.off _ hdrawn
    have hcounted := (h.activate hgroup hmem hoff).1
    refine Spawned.cons h hgroup hmem hoff ?_
    rw [QuestPoolModel.activateLoop]
    split_ifs with hrest
    · exact Counted.activateLoop hgroup (s := ⟨_,_⟩) hcounted hrest (hfresh.activate _ _)
    · exact hcounted.spawned limit

theorem newQuestsLoop_spec {quests : List ℕ} (hnodup : quests.Nodup) :
    ∀ {found : List ℕ}, found.Nodup → (∀ quest∈quests, quest∉found) →
      (newQuestsLoop spawns quests found).Nodup ∧
      (∀ quest, quest∈newQuestsLoop spawns quests found ↔
        quest∈found ∨ (quest∈quests ∧ spawns.IsActiveObject quest=false)) ∧
      (newQuestsLoop spawns quests found).length=
        found.length+quests.countP fun quest => !spawns.IsActiveObject quest := by
  induction quests with
  | nil =>
    exact fun hfound _ => ⟨hfound,fun quest =>
      ⟨Or.inl,fun h => h.elim id fun h => by cases h.1⟩,rfl⟩
  | cons first quests ih =>
    intro found hfound hout
    obtain ⟨hfirst,hquests⟩ := List.nodup_cons.mp hnodup
    rw [newQuestsLoop,List.countP_cons]
    by_cases hon : spawns.IsActiveObject first=true
    · obtain ⟨h1,h2,h3⟩ := ih hquests hfound fun quest hquest =>
        hout quest (List.mem_cons_of_mem _ hquest)
      rw [if_pos hon,hon]
      refine ⟨h1,fun quest => (h2 quest).trans (or_congr_right ?_),h3⟩
      refine ⟨fun h => ⟨List.mem_cons_of_mem _ h.1,h.2⟩,fun h => ⟨?_,h.2⟩⟩
      refine (List.mem_cons.mp h.1).resolve_left fun heq => ?_
      rw [heq,hon] at h
      cases h.2
    · have hoff := Bool.eq_false_iff.mpr hon
      have hnew := hout first (List.mem_cons_self ..)
      obtain ⟨h1,h2,h3⟩ := ih hquests (@nodup_insertQuest first _ hfound)
        fun quest hquest hmem => (mem_insertQuest.mp hmem).elim
          (fun heq => hfirst (heq ▸ hquest)) (hout quest (List.mem_cons_of_mem _ hquest))
      rw [if_neg hon,hoff]
      refine ⟨h1,fun quest => (h2 quest).trans ?_,?_⟩
      · rw [mem_insertQuest,List.mem_cons]
        refine ⟨fun h => ?_,fun h => ?_⟩
        · rcases h with (rfl | h) | h
          · exact Or.inr ⟨Or.inl rfl,hoff⟩
          · exact Or.inl h
          · exact Or.inr ⟨Or.inr h.1,h.2⟩
        · rcases h with h | ⟨h | h,hquest⟩
          · exact Or.inl (Or.inr h)
          · exact Or.inl (Or.inl h)
          · exact Or.inr ⟨h,hquest⟩
      · rw [h3,length_insertQuest hnew]
        simp only [Bool.not_false,if_true]
        omega

theorem newQuests_spec (hgroup : group∈cfg.mPoolQuestGroups) :
    (group.newQuests spawns).Nodup ∧
    (∀ quest, quest∈group.newQuests spawns ↔
      quest∈group.EqualChanced ∧ spawns.IsActiveObject quest=false) ∧
    (group.newQuests spawns).length=
      group.EqualChanced.countP fun quest => !spawns.IsActiveObject quest := by
  obtain ⟨h1,h2,h3⟩ := @newQuestsLoop_spec spawns _ (cfg.once group hgroup) _ List.nodup_nil
    fun _ _ => List.not_mem_nil
  refine ⟨h1,fun quest => (h2 quest).trans ?_,h3.trans (Nat.zero_add _)⟩
  exact ⟨fun h => h.resolve_left List.not_mem_nil,Or.inr⟩

theorem recycleLoop_spec {limit : ℕ} :
    ∀ {n : ℕ} {currentQuests newQuests rolls : List ℕ}, newQuests.Nodup → currentQuests≠[] →
      (recycleLoop limit n currentQuests newQuests rolls).1.Nodup ∧
      ∀ quest∈(recycleLoop limit n currentQuests newQuests rolls).1,
        quest∈newQuests ∨ quest∈currentQuests
  | 0,_,_,_,hnodup,_ => ⟨hnodup,fun _ hquest => Or.inl hquest⟩
  | n+1,currentQuests,newQuests,rolls,hnodup,hne => by
    have hdrawn := @select_mem rolls _ hne
    have hnew : ∀ quest∈insertQuest (SelectRandomContainerElement rolls currentQuests) newQuests,
        quest∈newQuests ∨ quest∈currentQuests := fun quest hquest =>
      (mem_insertQuest.mp hquest).elim (fun heq => Or.inr (heq ▸ hdrawn)) Or.inl
    have hinsert := @nodup_insertQuest (SelectRandomContainerElement rolls currentQuests) _
      hnodup
    rw [recycleLoop]
    split_ifs with hrest
    · obtain ⟨h1,h2⟩ := @recycleLoop_spec limit n _ _ rolls.tail hinsert
        hrest.2
      refine ⟨h1,fun quest hquest => ?_⟩
      rcases h2 quest hquest with h | h
      · exact hnew quest h
      · exact Or.inr (List.mem_of_mem_erase h)
    · exact ⟨hinsert,hnew⟩

/-- Where a pool fits, the candidates are quests of it, each once. -/
theorem candidates_spec (hgroup : group∈cfg.mPoolQuestGroups) {limit : ℕ} {s : State}
    (hfits : limit ≤ group.EqualChanced.countP (fun quest => !s.spawns.IsActiveObject quest) ∨
      ∀ quest∈s.spawns.mActiveQuests, quest∈group.EqualChanced) :
    (group.candidates limit s).1.Nodup ∧
      ∀ quest∈(group.candidates limit s).1, quest∈group.EqualChanced := by
  obtain ⟨hnodup,hmem,hlength⟩ := @newQuests_spec _ _ s.spawns hgroup
  unfold PoolGroup.candidates
  dsimp only
  split_ifs with hrecycle
  · obtain ⟨h1,h2⟩ := @recycleLoop_spec limit s.spawns.mActiveQuests.length
      _ _ s.rolls hnodup hrecycle.2
    refine ⟨h1,fun quest hquest => ?_⟩
    rcases h2 quest hquest with hnew | hold
    · exact ((hmem quest).mp hnew).1
    · refine hfits.resolve_left (fun hle => ?_) quest hold
      rw [← hlength] at hle
      exact absurd hrecycle.1 (Nat.not_lt.mpr hle)
  · exact ⟨hnodup,fun quest hquest => ((hmem quest).mp hquest).1⟩

/-- Spawning a pool that fits, which is empty where it is read from what was saved. -/
theorem Counted.spawnObject {rows : List ℕ} {limit triggerFrom : ℕ} {s : State}
    (h : Counted cfg s.spawns) (hgroup : group∈cfg.mPoolQuestGroups)
    (hrows : triggerFrom=0 → rows≠[] → Fresh group s.spawns rows ∧ group.active s.spawns=0)
    (hfits : (triggerFrom=0 ∧ rows≠[]) ∨
      limit ≤ group.EqualChanced.countP (fun quest => !s.spawns.IsActiveObject quest) ∨
      ∀ quest∈s.spawns.mActiveQuests, quest∈group.EqualChanced) :
    Counted cfg (group.SpawnObject rows limit triggerFrom s).spawns ∧
      group.active (group.SpawnObject rows limit triggerFrom s).spawns ≤ limit ∧
      Within group s.spawns (group.SpawnObject rows limit triggerFrom s).spawns := by
  unfold PoolGroup.SpawnObject
  by_cases hsaved : triggerFrom=0 ∧ rows≠[]
  · rw [if_pos hsaved]
    obtain ⟨hfresh,hzero⟩ := hrows hsaved.1 hsaved.2
    have hloaded := @Counted.loadLoop _ _ hgroup _ limit _ h hfresh
    refine ⟨hloaded.counted,?_,hloaded.within⟩
    have hle := hloaded.bounded
    dsimp only
    omega
  · rw [if_neg hsaved]
    obtain ⟨hcounted,hwithin,hoff⟩ := @Counted.despawnLoop _ _ hgroup group.EqualChanced
      (fun _ hquest => hquest) _ h
    have hzero : group.active (group.DespawnObject s.spawns)=0 :=
      List.countP_eq_zero.mpr fun quest hquest => by
        rw [PoolGroup.DespawnObject,hoff quest (Or.inr hquest)]
        exact Bool.false_ne_true
    obtain ⟨hnodup,hmem⟩ := candidates_spec hgroup (hfits.resolve_left hsaved)
    dsimp only
    split_ifs with hnil
    · exact ⟨hcounted,hzero.le.trans (Nat.zero_le _),hwithin⟩
    have hactivated := @Counted.activateLoop _ _ hgroup limit _
      ⟨group.DespawnObject s.spawns,(group.candidates limit s).2⟩ hcounted hnil
      ⟨hnodup,hmem,fun quest hquest => hoff quest (Or.inr (hmem quest hquest))⟩
    refine ⟨hactivated.counted,?_,hwithin.trans hactivated.within⟩
    have hle := hactivated.bounded
    dsimp only at hle
    omega

/-- What holds of the quest pools between two of them. -/
structure Inv (cfg : PoolConfig) (spawns : ActivePoolData) : Prop extends Counted cfg spawns where
  bounded : ∀ group∈cfg.mPoolQuestGroups, group.active spawns ≤ group.MaxLimit

theorem Inv.orderly (h : Inv cfg spawns) : Orderly cfg spawns :=
  ⟨h.members,h.counted,h.bounded⟩

variable {rows : ℕ → List ℕ} {s : State} {a : PoolGroup×ℕ}

/-- Spawning a pool that fits, none of whose quests is active where it is spawned at the start. -/
theorem Inv.spawnPool (h : Inv cfg s.spawns) (hsaved : Saved cfg rows)
    (hgroup : a.1∈cfg.mPoolQuestGroups)
    (hoff : a.2=0 → ∀ quest∈a.1.EqualChanced, s.spawns.IsActiveObject quest=false)
    (hfits : Fits rows s a) :
    Inv cfg (SpawnPool rows s a).spawns ∧ Within a.1 s.spawns (SpawnPool rows s a).spawns := by
  unfold SpawnPool
  split_ifs with hempty
  · exact ⟨h,fun _ _ => rfl⟩
  have hrows : a.2=0 → rows a.1.poolId≠[] →
      Fresh a.1 s.spawns (rows a.1.poolId) ∧ a.1.active s.spawns=0 := fun hzero _ => by
    obtain ⟨hnodup,hmem⟩ := hsaved a.1 hgroup
    refine ⟨⟨hnodup,hmem,fun quest hquest => hoff hzero quest (hmem quest hquest)⟩,?_⟩
    refine List.countP_eq_zero.mpr fun quest hquest => ?_
    rw [hoff hzero quest hquest]
    exact Bool.false_ne_true
  obtain ⟨hcounted,hle,hwithin⟩ := h.toCounted.spawnObject hgroup hrows
    (hfits.resolve_left hempty)
  refine ⟨⟨hcounted,fun other hother => ?_⟩,hwithin⟩
  by_cases heq : other=a.1
  · rw [heq]
    exact hle
  · rw [hwithin.active_eq hgroup hother heq]
    exact h.bounded other hother

theorem Within.keeps (hgroup : a.1∈cfg.mPoolQuestGroups)
    (h : Within a.1 s.spawns (SpawnPool rows s a).spawns) : KeepsOthers cfg rows s a :=
  fun other hother hne quest hquest => h quest fun hmem =>
    hne (cfg.apart other hother a.1 hgroup quest hquest hmem)

theorem Inv.start (hsaved : Saved cfg rows) {started : List PoolGroup} (hnodup : started.Nodup)
    (hgroups : ∀ group∈started, group∈cfg.mPoolQuestGroups) :
    ∀ {s : State}, Inv cfg s.spawns →
      (∀ group∈started, ∀ quest∈group.EqualChanced, s.spawns.IsActiveObject quest=false) →
      Meets (SpawnPool rows) (Fits rows) s (started.map fun group => (group,0)) →
      Inv cfg (run (SpawnPool rows) s (started.map fun group => (group,0))).spawns := by
  induction started with
  | nil => exact fun h _ _ => h
  | cons first started ih =>
    intro s h hoff hfits
    obtain ⟨hfirst,hnodup⟩ := List.nodup_cons.mp hnodup
    have hgroup := hgroups first (List.mem_cons_self ..)
    obtain ⟨hinv,hwithin⟩ := h.spawnPool (a := (first,0)) hsaved hgroup
      (fun _ => hoff first (List.mem_cons_self ..)) hfits.1
    have hrest : ∀ group∈started, group∈cfg.mPoolQuestGroups := fun group hmem =>
      hgroups group (List.mem_cons_of_mem _ hmem)
    refine ih hnodup hrest hinv (fun group hmem quest hquest => ?_) hfits.2
    have hne : group≠first := fun heq => hfirst (heq ▸ hmem)
    rw [hwithin.keeps hgroup group (hrest group hmem) hne quest hquest]
    exact hoff group (List.mem_cons_of_mem _ hmem) quest hquest

/-- With nothing active all is in order. -/
theorem Inv.empty : Inv cfg ⟨[],fun _ => 0,[]⟩ where
  members _ hx := by cases hx
  counted group _ := (List.countP_eq_zero.mpr fun _ _ => Bool.false_ne_true).symm
  nodup := List.nodup_nil
  bounded group _ := (List.countP_eq_zero.mpr fun _ _ => Bool.false_ne_true).le.trans
    (Nat.zero_le _)

theorem mem_rotated {change : Change} (ha : a∈cfg.rotated change) :
    a.1∈cfg.mPoolQuestGroups ∧ a.2=1 := by
  obtain ⟨group,hgroup,rfl⟩ := List.mem_map.mp ha
  exact ⟨List.mem_of_mem_filter hgroup,rfl⟩

theorem Inv.rotate (hsaved : Saved cfg rows) {l : List (PoolGroup×ℕ)}
    (hl : ∀ a∈l, a.1∈cfg.mPoolQuestGroups ∧ a.2=1) :
    ∀ {s : State}, Inv cfg s.spawns → Meets (SpawnPool rows) (Fits rows) s l →
      Inv cfg (run (SpawnPool rows) s l).spawns ∧
      Meets (SpawnPool rows) (KeepsOthers cfg rows) s l := by
  induction l with
  | nil => exact fun h _ => ⟨h,trivial⟩
  | cons a l ih =>
    intro s h hfits
    obtain ⟨hgroup,hone⟩ := hl a (List.mem_cons_self ..)
    obtain ⟨hinv,hwithin⟩ := h.spawnPool hsaved hgroup
      (fun hzero => absurd (hone.symm.trans hzero) Nat.one_ne_zero) hfits.1
    obtain ⟨hrun,hmeets⟩ := ih (fun b hb => hl b (List.mem_cons_of_mem _ hb)) hinv hfits.2
    exact ⟨hrun,hwithin.keeps hgroup,hmeets⟩

theorem saved_SaveQuestsToDB (cfg : PoolConfig) (s : State) :
    cfg.mPoolQuestGroups.Nodup → Saved cfg (cfg.SaveQuestsToDB s) := by
  intro hnodup group hgroup
  have hrows : cfg.SaveQuestsToDB s group.poolId=
      group.EqualChanced.filter s.spawns.IsActiveObject := by
    have hfilter : (cfg.mPoolQuestGroups.filter fun other => other.poolId=group.poolId)=
        [group] := by
      refine List.perm_singleton.mp ((List.perm_ext_iff_of_nodup (hnodup.filter _)
        (List.nodup_singleton _)).mpr fun other => ?_)
      rw [List.mem_filter,List.mem_singleton,decide_eq_true_eq]
      refine ⟨fun h => cfg.ids other h.1 group hgroup h.2,fun h => ?_⟩
      rw [h]
      exact ⟨hgroup,rfl⟩
    unfold PoolConfig.SaveQuestsToDB
    rw [hfilter,List.flatMap_singleton]
  rw [hrows]
  exact ⟨(cfg.once group hgroup).filter _,fun quest hquest => List.mem_of_mem_filter hquest⟩

end Counting

/-- From the start through every run of changes in which each pool that is spawned fits, the
pools are in order, and each rotation leaves the other pools as they are. -/
theorem quest_pools_in_order {cfg : PoolConfig} {rows : ℕ → List ℕ} (hsaved : Saved cfg rows)
    (rolls : List ℕ) {started : List PoolGroup} (hnodup : started.Nodup)
    (hgroups : ∀ group∈started, group∈cfg.mPoolQuestGroups) {changes : List Change}
    (hstart : Meets (SpawnPool rows) (Fits rows) ⟨⟨[],fun _ => 0,[]⟩,rolls⟩
      (started.map fun group => (group,0)))
    (hfits : Meets (cfg.change rows)
      (fun s change => Meets (SpawnPool rows) (Fits rows) s (cfg.rotated change))
      (startUp rows rolls started) changes) :
    Orderly cfg (run (cfg.change rows) (startUp rows rolls started) changes).spawns ∧
    Meets (cfg.change rows)
      (fun s change => Meets (SpawnPool rows) (KeepsOthers cfg rows) s (cfg.rotated change))
      (startUp rows rolls started) changes := by
  have hinv : Inv cfg (startUp rows rolls started).spawns :=
    Inv.start hsaved hnodup hgroups (s := ⟨⟨[],fun _ => 0,[]⟩,rolls⟩) Inv.empty
      (fun _ _ _ _ => rfl) hstart
  have hchange : ∀ (s : State) (change : Change), Inv cfg s.spawns →
      Meets (SpawnPool rows) (Fits rows) s (cfg.rotated change) →
      Inv cfg (cfg.change rows s change).spawns ∧
      Meets (SpawnPool rows) (KeepsOthers cfg rows) s (cfg.rotated change) :=
    fun s change h hfit => Inv.rotate hsaved (fun a ha => mem_rotated ha) h hfit
  refine ⟨(run_invariant (I := fun s => Inv cfg s.spawns)
    (fun s change h hfit => (hchange s change h hfit).1) hinv hfits).orderly,?_⟩
  exact meets_of_invariant (I := fun s => Inv cfg s.spawns)
    (fun s change h hfit => (hchange s change h hfit).2)
    (fun s change h hfit => (hchange s change h hfit).1) hinv hfits

section Samples

/-- Two pools of daily quests. -/
def dailies (first second : List ℕ)
    (hne : first.Nodup ∧ second.Nodup ∧ ∀ quest∈first, quest∉second) : PoolConfig where
  mPoolQuestGroups := [⟨1,first,1⟩,⟨2,second,1⟩]
  GetQuestTemplate _ := some ⟨true,false⟩
  ids group hgroup other hother hid := by
    rcases List.mem_pair.mp hgroup with rfl | rfl <;> rcases List.mem_pair.mp hother with rfl | rfl
    · rfl
    · cases hid
    · cases hid
    · rfl
  apart group hgroup other hother quest hquest hmem := by
    rcases List.mem_pair.mp hgroup with rfl | rfl <;> rcases List.mem_pair.mp hother with rfl | rfl
    · rfl
    · exact absurd hmem (hne.2.2 quest hquest)
    · exact absurd hquest (hne.2.2 quest hmem)
    · rfl
  once group hgroup := by
    rcases List.mem_pair.mp hgroup with rfl | rfl
    · exact hne.1
    · exact hne.2.1
  limited group hgroup := by
    rcases List.mem_pair.mp hgroup with rfl | rfl <;> exact Nat.le_refl 1

/-- Two quests in each pool. -/
def pairs : PoolConfig := dailies [1,2] [3,4] (by decide)

/-- The second pool has one quest, which is always active. -/
def single : PoolConfig := dailies [1,2] [3] (by decide)

/-- Nothing was saved. -/
def nothing (_ : ℕ) : List ℕ := []

theorem quest_pools_in_order_pairs :
    Orderly pairs (run (pairs.change nothing)
      (startUp nothing [0,1,0,1] pairs.mPoolQuestGroups) [.daily,.weekly,.daily]).spawns ∧
    Meets (pairs.change nothing)
      (fun s change => Meets (SpawnPool nothing) (KeepsOthers pairs nothing) s
        (pairs.rotated change))
      (startUp nothing [0,1,0,1] pairs.mPoolQuestGroups) [.daily,.weekly,.daily] :=
  quest_pools_in_order (fun _ _ => ⟨List.nodup_nil,fun _ h => absurd h List.not_mem_nil⟩) [0,1,0,1]
    (by decide) (fun _ h => h) (by decide) (by decide)

/-- The pool whose only quest is active draws from the active quests of both, takes that of the
other pool, and loses its own. -/
theorem rotation_takes_foreign_quest :
    let s := run (single.change nothing) (startUp nothing [0,0] single.mPoolQuestGroups) [.daily]
    s.spawns.activated=[(2,2),(2,1),(3,2),(1,1)] ∧ s.spawns.mSpawnedPools 2=1 ∧
      ¬Orderly single s.spawns := by
  refine ⟨by decide,by decide,fun h => ?_⟩
  exact absurd (h.counted ⟨2,[3],1⟩ (by decide)) (by decide)

end Samples

end Projectnelth.QuestPoolModel
