import Mathlib
import Projectnelth.LootFilling

/-!
# Runs of a loot

`FillLoot` itself hands currency out fairly: the lists of each player are fresh when the
currency loop goes through them. From then on what is handed out is handed out once as long as
each hand-out looks at both marks. `LootItemInSlot` looks at the player's own mark only, so two
players take one quest entry.
-/

namespace Projectnelth.LootModel

open KeyedList RunInvariant

variable {filled loot : Loot} {player slot : ℕ} {w : Viewer}

/-! ## Later viewers -/

/-- A slot of the currency loop hands out fairly. -/
def AutoFair (w : Viewer) (loot : Loot) (slot : ℕ) : Prop :=
  loot.isCurrency w slot=true → loot.StoreFair w.player slot w.allowed (w.canStore slot)

instance (w : Viewer) (loot : Loot) (slot : ℕ) : Decidable (AutoFair w loot slot) := by
  unfold AutoFair
  infer_instance

/-- The currency loop of a viewer hands out fairly. -/
def Loot.ViewFair (loot : Loot) (w : Viewer) : Prop :=
  w.present=true → Meets (Loot.autoStore w) (AutoFair w) (loot.fillLists w)
    (List.range ((loot.fillLists w).maxSlotFor w.player))

instance (loot : Loot) (w : Viewer) : Decidable (loot.ViewFair w) := by
  unfold Loot.ViewFair
  infer_instance

theorem isEmpty_listOf {kind : Kind} :
    (loot.listOf kind player).isEmpty=true ↔ ∀ q∈loot.lists kind,q.player≠player := by
  rw [List.isEmpty_iff,Loot.listOf,List.filter_eq_nil_iff]
  exact forall₂_congr fun q _ => by rw [decide_eq_true_eq]

theorem Keys.fill (h : Keys loot) {f : Filling} {indices : List ℕ}
    (hempty : (loot.listOf f.kind player).isEmpty=true) (hnodup : indices.Nodup) :
    Keys (loot.enterAll f player indices) :=
  h.enterAll hnodup fun _ _ q hq heq => isEmpty_listOf.mp hempty q hq (congrArg Prod.fst heq)

theorem Once.fill (h : Once filled loot) {f : Filling} {indices : List ℕ} (hf : f.Notes)
    (hempty : (loot.listOf f.kind player).isEmpty=true) (hnodup : indices.Nodup) :
    Once filled (loot.enterAll f player indices) :=
  h.later (later_enterAll hf indices loot) (h.keys.fill hempty hnodup)
    (given_enterAll indices loot)

theorem Once.fillLists (h : Once filled loot) (w : Viewer) : Once filled (loot.fillLists w) :=
  fillLists_keeps h
    (fun hempty => h.fill (f := questFilling w) (notes_questFilling w) hempty
      ((nodup_wantedBy ..).sublist (List.take_sublist ..)))
    (fun _ h hempty => h.fill (f := ffaFilling w) (notes_ffaFilling w) hempty (nodup_wantedBy ..))
    fun _ h hempty => h.fill (f := conditionalFilling w) (notes_conditionalFilling w) hempty
      (nodup_wantedBy ..)

theorem Once.autoStore (h : Once filled loot) (hfair : AutoFair w loot slot) :
    Once filled (loot.autoStore w slot) := by
  unfold Loot.autoStore
  split
  · exact h.store (hfair ‹_›)
  · exact h

theorem Once.view (h : Once filled loot) (hfair : loot.ViewFair w) :
    Once filled (loot.fillNotNormalLootFor w) := by
  have hlists := h.fillLists w
  unfold Loot.fillNotNormalLootFor Loot.autoStoreAll
  split
  · rw [← run_eq_foldl]
    exact run_invariant (fun _ _ hl ha => hl.autoStore ha) hlists (hfair ‹_›)
  · exact hlists

/-! ## The first filling -/

/-- A player whose lists are fresh: each free-for-all entry that the player may have has an own
entry, and a quest entry that is not marked for the player is not marked at all. -/
structure Stocked (w : Viewer) (loot : Loot) : Prop where
  /-- No list holds an entry twice. -/
  keys : Keys loot
  /-- The free-for-all entries have own entries. -/
  ffa : ∀ i item,loot.get (.item i)=some item → item.freeforall=true → item.is_looted=false →
    w.allowed item=true → (loot.own .ffa w.player i).isSome=true
  quest : ∀ q∈loot.lists .quest,q.player=w.player → q.is_looted=false →
    ∀ item,loot.get (.quest q.index)=some item → item.is_looted=false

/-- The place that a slot means for a player. -/
def Loot.requested (loot : Loot) (player slot : ℕ) : Option Place :=
  if slot ≥ loot.items.length then
    ((loot.listOf .quest player)[slot-loot.items.length]?).map fun q => .quest q.index
  else some (.item slot)

theorem place_pickOwn {kind : Kind} {item : LootItem} {pick : Pick}
    (h : loot.pickOwn kind item slot player=some pick) : pick.place=.item slot := by
  unfold Loot.pickOwn at h
  split at h
  · split_ifs at h
    cases h
    rfl
  · split_ifs at h
    cases h
    rfl

theorem requested_eq {pick : Pick} (h : loot.lootItemInSlot slot player=some pick) :
    loot.requested player slot=some pick.place := by
  unfold Loot.lootItemInSlot at h
  unfold Loot.requested
  by_cases hslot : slot ≥ loot.items.length
  · rw [if_pos hslot] at h ⊢
    split at h
    · rename_i q hq
      split_ifs at h
      cases h
      rw [hq]
      rfl
    · cases h
  · rw [if_neg hslot] at h ⊢
    split at h
    · cases h
    split_ifs at h
    · rw [place_pickOwn h]
    · rw [place_pickOwn h]
    · cases h
      rfl

theorem lootItemInSlot_of_storable {allowed : LootItem → Bool} {canStore : Bool} {pick : Pick}
    {item : LootItem} (h : loot.storable player slot allowed canStore=some (pick,item)) :
    loot.lootItemInSlot slot player=some pick := by
  unfold Loot.storable at h
  split at h
  · cases h
  rename_i found hfound
  split at h
  · cases h
  · split_ifs at h
    cases h
    exact hfound

/-- A player whose lists are fresh is served fairly by the currency loop. -/
theorem Stocked.fair (h : Stocked w loot) (slot : ℕ) : AutoFair w loot slot := by
  rintro hcurrency ⟨pick,item⟩ hstorable
  obtain ⟨hpicked,hitem⟩ := picked_storable h.keys hstorable
  have hplace := requested_eq (lootItemInSlot_of_storable hstorable)
  dsimp only
  unfold Loot.requested at hplace
  by_cases hslot : slot ≥ loot.items.length
  · rw [if_pos hslot] at hplace
    obtain ⟨q,_,hq⟩ := Option.map_eq_some_iff.mp hplace
    have hown := hpicked.quest q.index hq.symm
    obtain ⟨_,own,hfound,hfree⟩ := hpicked.own .quest hown
    obtain ⟨hmem,hplayer,hindex⟩ := mem_of_own hfound
    have hitem' : loot.get (.quest own.index)=some item := by
      rw [hindex,hpicked.index,← hq]
      exact (congrArg loot.get hq).trans hitem
    exact ⟨h.quest own hmem hplayer hfree item hitem',fun _ => by rw [hown]; rfl⟩
  · rw [if_neg hslot] at hplace
    have hplace : pick.place=.item slot := (Option.some.inj hplace).symm
    unfold Loot.isCurrency Loot.placeOf at hcurrency
    rw [if_neg hslot,← hplace,hitem,Option.any_some] at hcurrency
    simp only [Bool.and_eq_true,Bool.not_eq_true'] at hcurrency
    obtain ⟨⟨⟨hfree,hffa⟩,hallowed⟩,_⟩ := hcurrency
    refine ⟨hfree,fun _ => ?_⟩
    have hown := h.ffa slot item (hplace ▸ hitem) hffa hfree hallowed
    cases hpick : pick.own with
    | some kind => rfl
    | none =>
      have hnone := hpicked.missing hpick item hitem hffa
      rw [hpicked.index,hplace,show (Place.item slot).index=slot from rfl] at hnone
      rw [hnone] at hown
      cases hown

theorem get_storeLootItem {allowed : LootItem → Bool} {canStore : Bool} {pick : Pick}
    {item : LootItem} (h : loot.storable player slot allowed canStore=some (pick,item))
    (other : Place) :
    (loot.storeLootItem player slot allowed canStore).get other=
      if pick.place=other then (loot.get other).map markShared else loot.get other := by
  unfold Loot.storeLootItem
  rw [h]
  dsimp only
  rw [get_countDown,get_modify,get_markOwn,get_give]

theorem own_storeLootItem {allowed : LootItem → Bool} {canStore : Bool} {pick : Pick}
    {item : LootItem} (h : loot.storable player slot allowed canStore=some (pick,item)) :
    (loot.storeLootItem player slot allowed canStore).lists=
      (loot.markOwn player pick.index pick.own).lists := by
  unfold Loot.storeLootItem
  rw [h]
  dsimp only
  show (((loot.give pick.place player item.count).markOwn player pick.index pick.own).modify
    markShared pick.place).lists=_
  rw [lists_modify]
  cases pick.own <;> rfl

theorem own_congr {loot' : Loot} (h : loot'.lists=loot.lists) (kind : Kind) (player index : ℕ) :
    loot'.own kind player index=loot.own kind player index := by
  unfold Loot.own
  rw [h]

/-- Storing keeps the lists of the player in order. -/
theorem Stocked.store (h : Stocked w loot) (slot : ℕ) (allowed : LootItem → Bool) (canStore : Bool) :
    Stocked w (loot.storeLootItem w.player slot allowed canStore) := by
  cases hstorable : loot.storable w.player slot allowed canStore with
  | none =>
    unfold Loot.storeLootItem
    rw [hstorable]
    exact h
  | some x =>
    obtain ⟨pick,item⟩ := x
    obtain ⟨hpicked,hitem⟩ := picked_storable h.keys hstorable
    have hlists := own_storeLootItem hstorable
    refine ⟨fun kind => ?_,fun i other hother hffa hfree hallowed => ?_,
      fun q hq hplayer hfree other hother => ?_⟩
    · rw [hlists]
      exact h.keys.markOwn w.player pick.index pick.own kind
    · have hold : loot.get (.item i)=some other := by
        rw [get_storeLootItem hstorable] at hother
        split at hother
        · obtain ⟨old,hold,rfl⟩ := Option.map_eq_some_iff.mp hother
          have holdFfa : old.freeforall=true := (comesFrom_markShared old).1 ▸ hffa
          rw [hold,markShared,if_pos holdFfa]
        · exact hother
      rw [own_congr hlists,own_markOwn]
      have hown := h.ffa i other hold hffa hfree hallowed
      split
      · rw [Option.isSome_map]
        exact hown
      · exact hown
    · rw [hlists] at hq
      have hkeys : Keys (loot.markOwn w.player pick.index pick.own) :=
        h.keys.markOwn w.player pick.index pick.own
      have hown := hkeys.own_of_mem hq
      rw [own_markOwn] at hown
      split at hown
      · obtain ⟨old,_,hmarked⟩ := Option.map_eq_some_iff.mp hown
        rw [← hmarked] at hfree
        cases hfree
      · rename_i hother'
        have hmem := mem_of_own hown
        rw [get_storeLootItem hstorable] at hother
        split at hother
        · rename_i hplace
          have hpick := hpicked.quest _ hplace
          exact absurd ⟨hpick,hplayer,by rw [hpicked.index,hplace]; rfl⟩ hother'
        · exact h.quest q hmem.1 hplayer hfree other hother

/-- The lists of a player without entries are fresh once they are filled. -/
theorem stocked_fillLists (hkeys : Keys loot)
    (hnew : ∀ kind,∀ q∈loot.lists kind,q.player≠w.player) : Stocked w (loot.fillLists w) := by
  -- the three fillings follow one another, none of them touches the lists of the others
  have hempty : ∀ kind,(loot.listOf kind w.player).isEmpty=true := fun kind =>
    isEmpty_listOf.mpr (hnew kind)
  have hempty₁ : ∀ kind,kind≠.quest → ((loot.fillQuestLoot w).listOf kind w.player).isEmpty=true :=
    fun kind hkind => isEmpty_listOf.mpr fun q hq => hnew kind q
      ((mem_lists_enterAll hq).resolve_right fun hright => hkind hright.1)
  have hempty₂ : (((loot.fillQuestLoot w).fillFFALoot w).listOf .conditional
      w.player).isEmpty=true := isEmpty_listOf.mpr fun q hq =>
    isEmpty_listOf.mp (hempty₁ .conditional (by rintro ⟨⟩)) q
      ((mem_lists_enterAll hq).resolve_right fun hright => by cases hright.1)
  have hfill : loot.fillLists w=((loot.fillQuestLoot w).fillFFALoot w).fillConditionalLoot w := by
    unfold Loot.fillLists
    dsimp only
    rw [if_pos (hempty .quest),if_pos (hempty₁ .ffa (by rintro ⟨⟩)),if_pos hempty₂]
  have hkeys₁ : Keys (loot.fillQuestLoot w) := hkeys.fill (f := questFilling w) (hempty .quest)
    ((nodup_wantedBy ..).sublist (List.take_sublist ..))
  have hkeys₂ : Keys ((loot.fillQuestLoot w).fillFFALoot w) :=
    hkeys₁.fill (f := ffaFilling w) (hempty₁ .ffa (by rintro ⟨⟩)) (nodup_wantedBy ..)
  rw [hfill]
  refine ⟨hkeys₂.fill (f := conditionalFilling w) hempty₂ (nodup_wantedBy ..),
    fun i item hitem hffa hfree hallowed => ?_,fun q hq hplayer hfree item hitem => ?_⟩
  · have hitem₂ : ((loot.fillQuestLoot w).fillFFALoot w).get (.item i)=some item := by
      rw [← hitem]
      refine (get_enterAll_of_ne (.item i) fun j hj heq => ?_).symm
      obtain ⟨_,old,hold,hwanted⟩ := mem_wantedBy.mp hj
      obtain ⟨old',hold',hnoted⟩ := noted_enterAll (notes_conditionalFilling w) _ _ _ _ hitem
      rw [← heq,hold] at hold'
      rw [Option.some.inj hold'] at hwanted
      have hno : old'.freeforall=false := by
        simp only [conditionalFilling,Bool.and_eq_true,Bool.not_eq_true'] at hwanted
        exact hwanted.1.1.2
      rw [hnoted.2.1,hno] at hffa
      cases hffa
    obtain ⟨old,hold,hnoted⟩ := noted_enterAll (notes_ffaFilling w) _ _ _ _ hitem₂
    have hsame : old=item := by
      have hnote : ∀ (indices : List ℕ) (l : Loot) (place : Place),
          (l.enterAll (ffaFilling w) w.player indices).get place=l.get place := by
        intro indices
        induction indices with
        | nil => exact fun _ _ => rfl
        | cons j indices ih =>
          intro l place
          refine (ih (l.enter (ffaFilling w) w.player j) place).trans ?_
          rw [get_enter]
          split
          · exact congrFun Option.map_id _
          · rfl
      exact Option.some.inj ((hold.symm.trans (hnote _ _ _).symm).trans hitem₂)
    subst hsame
    have hmem : i∈(loot.fillQuestLoot w).wantedBy (ffaFilling w)
        (loot.fillQuestLoot w).items.length := by
      refine mem_wantedBy.mpr ⟨?_,old,hold,?_⟩
      · exact (List.getElem?_eq_some_iff.mp (show (loot.fillQuestLoot w).items[i]?=some old
          from hold)).1
      · simp [ffaFilling,hffa,hfree,hallowed]
    have hown : (((loot.fillQuestLoot w).fillFFALoot w).own .ffa w.player i).isSome=true :=
      own_enterAll_of_mem (f := ffaFilling w) hmem (congrArg Option.isSome hold)
    obtain ⟨q,hq⟩ := Option.isSome_iff_exists.mp hown
    exact Option.isSome_iff_exists.mpr ⟨q,own_enterAll hq⟩
  · have hq₂ := (mem_lists_enterAll hq).resolve_right fun hright => by cases hright.1
    have hq₁ := (mem_lists_enterAll hq₂).resolve_right fun hright => by cases hright.1
    obtain hold | ⟨_,_,hindex,_⟩ := mem_lists_enterAll hq₁
    · exact absurd hplayer (hnew .quest q hold)
    obtain ⟨_,old,hold,hwanted⟩ := mem_wantedBy.mp ((List.take_sublist ..).subset hindex)
    obtain ⟨item₂,hitem₂,hnoted₂⟩ := noted_enterAll (notes_conditionalFilling w) _ _ _ _ hitem
    obtain ⟨item₁,hitem₁,hnoted₁⟩ := noted_enterAll (notes_ffaFilling w) _ _ _ _ hitem₂
    obtain ⟨item₀,hitem₀,hnoted₀⟩ := noted_enterAll (notes_questFilling w) _ _ _ _ hitem₁
    have hsame : item₀=old := Option.some.inj (hitem₀.symm.trans hold)
    rw [hnoted₂.1,hnoted₁.1,hnoted₀.1,hsame]
    simp only [questFilling,Bool.and_eq_true,Bool.not_eq_true'] at hwanted
    exact hwanted.1

theorem Stocked.autoStore (h : Stocked w loot) (slot : ℕ) : Stocked w (loot.autoStore w slot) := by
  unfold Loot.autoStore
  split
  · exact h.store slot w.allowed (w.canStore slot)
  · exact h

/-- A viewer without entries is served fairly. -/
theorem viewFair_of_new (hkeys : Keys loot)
    (hnew : ∀ kind,∀ q∈loot.lists kind,q.player≠w.player) : loot.ViewFair w := fun _ =>
  meets_of_invariant (fun _ slot hl _ => hl.fair slot) (fun _ slot hl _ => hl.autoStore slot)
    (stocked_fillLists hkeys hnew) (meets_of_forall (fun _ _ => trivial) _ _)

/-! ## `FillLoot` -/

theorem addStacks_fields (proto : ItemTemplate) (li : LootStoreItem) (drop : ℕ → Option ℕ)
    (bases minmax : ℕ) (loot : Loot) :
    (addStacks proto li drop bases minmax loot).lists=loot.lists ∧
      (addStacks proto li drop bases minmax loot).given=loot.given := by
  induction bases generalizing minmax loot with
  | zero => exact ⟨rfl,rfl⟩
  | succ bases ih =>
    unfold addStacks
    dsimp only
    split_ifs <;> refine ⟨(ih _ _).1.trans ?_,(ih _ _).2.trans ?_⟩ <;> cases drop bases <;> rfl

/-- Before it is shown to anybody a loot has no lists and nothing was given. -/
theorem generate_fields (gold : ℕ) (rolls : List Rolled) :
    (generate gold rolls).lists=(fun _ => []) ∧ (generate gold rolls).given=[] := by
  have hfold : ∀ loot : Loot,(rolls.foldl Loot.addItem loot).lists=loot.lists ∧
      (rolls.foldl Loot.addItem loot).given=loot.given := by
    induction rolls with
    | nil => exact fun _ => ⟨rfl,rfl⟩
    | cons r rolls ih =>
      intro loot
      have hadd : (loot.addItem r).lists=loot.lists ∧ (loot.addItem r).given=loot.given := by
        unfold Loot.addItem
        split
        · exact ⟨rfl,rfl⟩
        · exact addStacks_fields ..
      exact ⟨(ih (loot.addItem r)).1.trans hadd.1,(ih (loot.addItem r)).2.trans hadd.2⟩
  exact hfold (Loot.empty gold)

theorem once_generate (gold : ℕ) (rolls : List Rolled) :
    Once (generate gold rolls) (generate gold rolls) where
  keys kind := by
    rw [(generate_fields gold rolls).1]
    exact List.nodup_nil
  entry _ item h := ⟨item,h,.refl item⟩
  counts g hg := by
    rw [(generate_fields gold rolls).2] at hg
    cases hg
  shared g hg := by
    rw [(generate_fields gold rolls).2] at hg
    cases hg
  own g hg := by
    rw [(generate_fields gold rolls).2] at hg
    cases hg
  once _ _ _ _ := by
    rw [(generate_fields gold rolls).2]
    exact Nat.zero_le 1
  onceEach _ _ _ _ _ := by
    rw [(generate_fields gold rolls).2]
    exact Nat.zero_le 1

/-- A viewer adds entries of its own only. -/
theorem mem_lists_view {kind : Kind} {q : QuestItem}
    (h : q∈(loot.fillNotNormalLootFor w).lists kind) :
    q.player=w.player ∨ ∃ old∈loot.lists kind,old.player=q.player := by
  have hstore : ∀ (loot : Loot) (slot : ℕ) (q : QuestItem),
      q∈(loot.autoStore w slot).lists kind →
        q.player=w.player ∨ ∃ old∈loot.lists kind,old.player=q.player := by
    intro loot slot q hq
    unfold Loot.autoStore at hq
    split at hq
    · cases hstorable : loot.storable w.player slot w.allowed (w.canStore slot) with
      | none =>
        unfold Loot.storeLootItem at hq
        rw [hstorable] at hq
        exact Or.inr ⟨q,hq,rfl⟩
      | some x =>
        rw [own_storeLootItem hstorable] at hq
        cases hown : x.1.own with
        | none =>
          rw [hown] at hq
          exact Or.inr ⟨q,hq,rfl⟩
        | some marked =>
          rw [hown,lists_markOwn] at hq
          split at hq
          · obtain rfl | hold := mem_of_mem_replace hq
            · exact Or.inl rfl
            · exact Or.inr ⟨q,hold,rfl⟩
          · exact Or.inr ⟨q,hq,rfl⟩
    · exact Or.inr ⟨q,hq,rfl⟩
  have hloop : ∀ (slots : List ℕ) (loot : Loot),q∈(slots.foldl (Loot.autoStore w) loot).lists kind →
      q.player=w.player ∨ ∃ old∈loot.lists kind,old.player=q.player := by
    intro slots
    induction slots with
    | nil => exact fun _ hq => Or.inr ⟨q,hq,rfl⟩
    | cons slot slots ih =>
      intro loot hq
      obtain hplayer | ⟨old,hold,heq⟩ := ih (loot.autoStore w slot) hq
      · exact Or.inl hplayer
      · rw [← heq]
        exact hstore loot slot old hold
  have hfill : ∀ (f : Filling) (indices : List ℕ) (loot : Loot) (q : QuestItem),
      q∈(loot.enterAll f w.player indices).lists kind →
        q.player=w.player ∨ ∃ old∈loot.lists kind,old.player=q.player := fun f indices loot q hq =>
    (mem_lists_enterAll hq).elim (fun hold => Or.inr ⟨q,hold,rfl⟩) fun hnew => Or.inl hnew.2.1
  have hlists : ∀ q∈(loot.fillLists w).lists kind,
      q.player=w.player ∨ ∃ old∈loot.lists kind,old.player=q.player := by
    have hchain : ∀ (f : Filling) (indices : Loot → List ℕ) (c : Loot → Bool) (loot' : Loot),
        (∀ q∈loot'.lists kind,q.player=w.player ∨ ∃ old∈loot.lists kind,old.player=q.player) →
        ∀ q∈(if c loot'=true then loot'.enterAll f w.player (indices loot') else loot').lists kind,
          q.player=w.player ∨ ∃ old∈loot.lists kind,old.player=q.player := by
      intro f indices c loot' hloot' q hq
      split at hq
      · obtain hplayer | ⟨old,hold,heq⟩ := hfill f _ _ _ hq
        · exact Or.inl hplayer
        · rw [← heq]
          exact hloot' old hold
      · exact hloot' q hq
    exact hchain (conditionalFilling w) (fun l => l.wantedBy (conditionalFilling w) l.items.length)
      (fun l => (l.listOf .conditional w.player).isEmpty) _
      (hchain (ffaFilling w) (fun l => l.wantedBy (ffaFilling w) l.items.length)
        (fun l => (l.listOf .ffa w.player).isEmpty) _
        (hchain (questFilling w) (fun l => (l.wantedBy (questFilling w) l.quest_items.length).take
          (MAX_NR_LOOT_ITEMS-l.items.length)) (fun l => (l.listOf .quest w.player).isEmpty) loot
          fun q hq => Or.inr ⟨q,hq,rfl⟩))
  unfold Loot.fillNotNormalLootFor Loot.autoStoreAll at h
  split at h
  · obtain hplayer | ⟨old,hold,heq⟩ := hloop _ _ h
    · exact Or.inl hplayer
    · rw [← heq]
      exact hlists old hold
  · exact hlists q h

/-- `FillLoot` hands out fairly. -/
theorem once_fillLoot (gold : ℕ) (rolls : List Rolled) {viewers : List Viewer}
    (hdistinct : (viewers.map (·.player)).Nodup) :
    Once (generate gold rolls) (fillLoot gold rolls viewers) := by
  have hfold : ∀ loot,Once (generate gold rolls) loot →
      (∀ kind,∀ q∈loot.lists kind,∀ w∈viewers,q.player≠w.player) →
        Once (generate gold rolls) (viewers.foldl Loot.fillNotNormalLootFor loot) := by
    induction viewers with
    | nil => exact fun _ h _ => h
    | cons w viewers ih =>
      intro loot h hnew
      obtain ⟨hw,hdistinct⟩ := List.nodup_cons.mp hdistinct
      refine ih hdistinct _ (h.view (viewFair_of_new h.keys fun kind q hq =>
        hnew kind q hq w List.mem_cons_self)) fun kind q hq w' hw' => ?_
      obtain hplayer | ⟨old,hold,heq⟩ := mem_lists_view hq
      · exact fun heq => hw (List.mem_map.mpr ⟨w',hw',heq.symm.trans hplayer⟩)
      · exact heq ▸ hnew kind old hold w' (List.mem_cons_of_mem w hw')
  refine hfold _ (once_generate gold rolls) fun kind q hq => ?_
  rw [(generate_fields gold rolls).1] at hq
  cases hq

/-! ## Runs -/

/-- A step hands out fairly. -/
def Fair (loot : Loot) : Action → Prop
  | .view w => loot.ViewFair w
  | .store player slot allowed canStore => loot.StoreFair player slot allowed canStore
  | .give target slot allowed canStore => loot.GiveFair target slot allowed canStore
  | .award slot outcome => loot.AwardFair slot outcome

instance (loot : Loot) (a : Action) : Decidable (Fair loot a) := by
  cases a <;> unfold Fair <;> infer_instance

/-- The entry was stored, by this player if it is free for all. -/
def Taken (loot : Loot) (place : Place) (player : ℕ) : Prop :=
  ∃ item∈loot.get place,∃ g∈loot.given,g.place=place ∧ (item.freeforall=true → g.player=player)

/-- A request for an entry that was taken changes nothing. -/
def TakenStays (loot : Loot) : Action → Prop
  | .store player slot allowed canStore => ∀ place∈loot.requested player slot,
      Taken loot place player → loot.storeLootItem player slot allowed canStore=loot
  | .give target slot allowed canStore =>
      Taken loot (loot.placeOf slot) target → loot.masterGive target slot allowed canStore=loot
  | _ => True

/-- What is to hold of the things that were handed out of a loot. -/
structure HandedOutOnce (filled loot : Loot) : Prop where
  /-- An entry that is not free for all was stored at most once. -/
  once : ∀ place item,loot.get place=some item → item.freeforall=false →
    loot.given.countP (fun g => g.place=place) ≤ 1
  /-- A free-for-all entry was stored at most once by each player. -/
  onceEach : ∀ place item,loot.get place=some item → item.freeforall=true →
    ∀ player,loot.given.countP (fun g => g.place=place ∧ g.player=player) ≤ 1
  counts : ∀ g∈loot.given,∃ item,filled.get g.place=some item ∧ g.count=item.count

/-- What was taken bears a mark that a fair hand-out looks at. -/
theorem Once.marked_of_taken (h : Once filled loot) {place : Place} {item : LootItem}
    (htaken : Taken loot place player) (hitem : loot.get place=some item)
    (hfree : item.is_looted=false) : item.freeforall=true ∧ Marked loot place player := by
  obtain ⟨item',hitem',g,hg,hplace,hplayer⟩ := htaken
  obtain rfl := Option.some.inj (hitem.symm.trans hitem')
  obtain ⟨hffa,hmarked⟩ := h.none_given hitem hfree hg hplace
  exact ⟨hffa,hplayer hffa ▸ hmarked⟩

theorem Once.takenStays (h : Once filled loot) {a : Action} (hfair : Fair loot a) :
    TakenStays loot a := by
  cases a with
  | view w => trivial
  | award slot outcome => trivial
  | store player slot allowed canStore =>
    intro place hplace htaken
    cases hstorable : loot.storable player slot allowed canStore with
    | none =>
      unfold Loot.storeLootItem
      rw [hstorable]
    | some x =>
      obtain ⟨pick,item⟩ := x
      obtain ⟨hpicked,hitem⟩ := picked_storable h.keys hstorable
      obtain ⟨hfree,hown⟩ := hfair (pick,item) hstorable
      have hrequested := requested_eq (lootItemInSlot_of_storable hstorable)
      obtain rfl : pick.place=place := Option.some.inj (hrequested.symm.trans hplace)
      obtain ⟨hffa,q,hq,hmark⟩ := h.marked_of_taken htaken hitem hfree
      obtain ⟨kind,hkind⟩ := Option.isSome_iff_exists.mp (hown hffa)
      obtain ⟨_,own,hfound,hunmarked⟩ := hpicked.own kind hkind
      have hq : loot.own pick.place.ffaKind player pick.place.index=some q := hq
      rw [hpicked.ffa kind item hkind hitem hffa,hpicked.index,hq] at hfound
      rw [← Option.some.inj hfound,hmark] at hunmarked
      cases hunmarked
  | give target slot allowed canStore =>
    intro htaken
    cases hgivable : loot.givable slot allowed canStore with
    | none =>
      unfold Loot.masterGive
      rw [hgivable]
    | some item =>
      obtain ⟨hfree,hown⟩ := hfair item hgivable
      obtain ⟨hffa,hmarked⟩ := h.marked_of_taken htaken (get_of_givable hgivable) hfree
      exact absurd hmarked (hown hffa)

theorem Once.step (h : Once filled loot) {a : Action} (hfair : Fair loot a) :
    Once filled (step loot a) := by
  cases a with
  | view w => exact h.view hfair
  | store player slot allowed canStore => exact h.store hfair
  | give target slot allowed canStore => exact h.masterGive hfair
  | award slot outcome => exact h.award hfair

/-- Whatever a loot was filled with for an owner or the members of a group, along every run of
fair steps each entry is handed out once, to each player once if it is free for all, with the
count that was rolled, and a request for an entry that was taken changes nothing. -/
theorem loot_handed_out_once (gold : ℕ) (rolls : List Rolled) (viewers : List Viewer)
    (hdistinct : (viewers.map (·.player)).Nodup) (actions : List Action)
    (hfair : Meets step Fair (fillLoot gold rolls viewers) actions) :
    HandedOutOnce (generate gold rolls) (run step (fillLoot gold rolls viewers) actions) ∧
      Meets step TakenStays (fillLoot gold rolls viewers) actions := by
  have hfill := once_fillLoot gold rolls hdistinct
  have hrun := run_invariant (fun _ _ h ha => h.step ha) hfill hfair
  exact ⟨⟨hrun.once,hrun.onceEach,hrun.counts⟩,
    meets_of_invariant (fun _ _ h ha => h.takenStays ha) (fun _ _ h ha => h.step ha) hfill hfair⟩

/-- A present player of a group under free-for-all loot that may have everything. -/
def sampleViewer (player : ℕ) : Viewer :=
  ⟨player,fun _ => true,some .freeForAll,false,true,fun _ => false,fun _ => true⟩

/-- What a template with a quest entry, a free-for-all entry and a plain one rolls. -/
def sampleRolls : List Rolled :=
  [⟨some ⟨20,false,false⟩,⟨1,1,true,false⟩,1,fun _ => some 1⟩,
    ⟨some ⟨20,true,false⟩,⟨2,5,false,false⟩,3,fun _ => some 2⟩,
    ⟨some ⟨20,false,false⟩,⟨3,1,false,false⟩,1,fun _ => some 3⟩]

/-- Two players take their shares, and one asks twice. -/
theorem loot_handed_out_once_sample :
    let actions : List Action := [.store 1 0 (fun _ => true) true,.store 1 0 (fun _ => true) true,
      .store 2 0 (fun _ => true) true,.store 2 2 (fun _ => true) true,
      .give 1 1 (fun _ => true) true]
    HandedOutOnce (generate 0 sampleRolls)
        (run step (fillLoot 0 sampleRolls [sampleViewer 1,sampleViewer 2]) actions) ∧
      Meets step TakenStays (fillLoot 0 sampleRolls [sampleViewer 1,sampleViewer 2]) actions :=
  loot_handed_out_once 0 sampleRolls [sampleViewer 1,sampleViewer 2] (by decide) _ (by decide)

/-- Two players take the one quest entry; the master looter gives one entry twice, the second
time none of it; and a player without a list takes a free-for-all entry twice. -/
theorem loot_handed_out_twice :
    ((run step (fillLoot 0 sampleRolls [sampleViewer 1,sampleViewer 2])
      [.store 1 2 (fun _ => true) true,.store 2 2 (fun _ => true) true]).given=
        [⟨.quest 0,2,1⟩,⟨.quest 0,1,1⟩]) ∧
    ((run step (fillLoot 0 sampleRolls [sampleViewer 1])
      [.give 1 1 (fun _ => true) true,.give 2 1 (fun _ => true) true]).given=
        [⟨.item 1,2,0⟩,⟨.item 1,1,1⟩]) ∧
    ((run step (fillLoot 0 sampleRolls [sampleViewer 1])
      [.store 2 0 (fun _ => true) true,.store 2 0 (fun _ => true) true]).given=
        [⟨.item 0,2,3⟩,⟨.item 0,2,3⟩]) :=
  ⟨by decide,by decide,by decide⟩

end Projectnelth.LootModel
