import Mathlib
import Projectnelth.LootTally

/-!
# Runs of the loot counter

Each step whose hand-outs are units keeps the counter right, and `AddItem` makes it right as
long as the instance refuses no plain entry.
-/

namespace Projectnelth.LootModel

open KeyedList RunInvariant

variable {loot loot' : Loot} {player slot : ℕ} {w : Viewer}

/-! ## Hand-outs -/

theorem Right.store (h : Right loot) {allowed : LootItem → Bool} {canStore : Bool}
    (hcounts : loot.StoreCounts player slot allowed canStore) :
    Right (loot.storeLootItem player slot allowed canStore) := by
  cases hstorable : loot.storable player slot allowed canStore with
  | none =>
    unfold Loot.storeLootItem
    rw [hstorable]
    exact h
  | some x =>
    have hunits := units_storeLootItem h.keys hcounts hstorable
    have hlists := own_storeLootItem hstorable
    refine ⟨fun kind => ?_,h.tally.sub_one hunits ?_ ?_,?_⟩
    · rw [hlists]
      exact h.keys.markOwn player x.1.index x.1.own kind
    · unfold Loot.storeLootItem
      rw [hstorable]
      dsimp only [Loot.countDown]
      rw [unlootedCount_modify,unlootedCount_markOwn]
      rfl
    · refine h.tally.counted_of_modify (f := markShared) (fun item => ?_)
        (get_storeLootItem hstorable)
        fun kind index => (listed_congr hlists kind index).trans (listed_markOwn ..)
      unfold markShared
      split <;> exact ⟨rfl,rfl,rfl⟩
    · have hfits := h.fits
      omega

theorem Right.covered_store (h : Right loot) {allowed : LootItem → Bool} {canStore : Bool}
    (hcounts : loot.StoreCounts player slot allowed canStore)
    (hstorable : (loot.storable player slot allowed canStore).isSome=true) :
    loot.unlootedCount≠0 := by
  obtain ⟨x,hx⟩ := Option.isSome_iff_exists.mp hstorable
  have hunits := units_storeLootItem h.keys hcounts hx
  exact h.ne_zero (by omega)

/-- An obtainable entry is handed to somebody, or disenchanted, and marked for everybody. -/
theorem Right.hand (h : Right loot) {place : Place} {f : LootItem → LootItem}
    (hshared : loot.isShared place=true)
    (hf : ∀ item,(f item).is_looted=true ∧ (f item).freeforall=item.freeforall ∧
      (f item).conditional=item.conditional ∧ (f item).is_counted=item.is_counted)
    (hitems : loot'.items=(loot.modify f place).items)
    (hquest : loot'.quest_items=(loot.modify f place).quest_items)
    (hlists : loot'.lists=loot.lists) (hcount : loot'.unlootedCount=loot.unlootedCount-1) :
    Right loot' := by
  have hunits := units_hand hshared (fun item => ⟨(hf item).1,(hf item).2.1⟩) hitems hquest hlists
  have hget : ∀ other,loot'.get other=
      if place=other then (loot.get other).map f else loot.get other := fun other => by
    rw [← get_modify]
    cases other with
    | item i => exact congrArg (fun l : List LootItem => l[i]?) hitems
    | quest i => exact congrArg (fun l : List LootItem => l[i]?) hquest
  refine ⟨fun kind => ?_,h.tally.sub_one hunits hcount (h.tally.counted_of_modify
    (fun item => (hf item).2) hget (listed_congr hlists)),?_⟩
  · rw [hlists]
    exact h.keys kind
  · have hfits := h.fits
    omega

theorem Right.ne_zero_of_shared (h : Right loot) {place : Place}
    (hshared : loot.isShared place=true) : loot.unlootedCount≠0 := by
  obtain ⟨item,hitem,_⟩ := (Option.any_eq_true _ _).mp hshared
  refine h.ne_zero fun hzero => ?_
  have hpos : 0 < loot.places.countP loot.isShared :=
    List.countP_pos_iff.mpr ⟨place,mem_places hitem,hshared⟩
  unfold Loot.units at hzero
  omega

theorem Right.masterGive (h : Right loot) {target : ℕ} {allowed : LootItem → Bool} {canStore : Bool}
    (hcounts : (loot.givable slot allowed canStore).isSome=true →
      loot.isShared (loot.placeOf slot)=true) :
    Right (loot.masterGive target slot allowed canStore) := by
  unfold Loot.masterGive
  cases hgivable : loot.givable slot allowed canStore with
  | none => exact h
  | some item =>
    have hshared := hcounts (by rw [hgivable]; rfl)
    have hf : ∀ item : LootItem,({item with count := 0,is_looted := true} : LootItem).is_looted=
        true ∧ ({item with count := 0,is_looted := true} : LootItem).freeforall=item.freeforall ∧
        ({item with count := 0,is_looted := true} : LootItem).conditional=item.conditional ∧
        ({item with count := 0,is_looted := true} : LootItem).is_counted=item.is_counted :=
      fun _ => ⟨rfl,rfl,rfl,rfl⟩
    cases hplace : loot.placeOf slot with
    | item i => exact h.hand (hplace ▸ hshared) hf rfl rfl rfl rfl
    | quest i => exact h.hand (hplace ▸ hshared) hf rfl rfl rfl rfl

/-- A write that leaves the marks of an entry. -/
theorem Right.unblock (h : Right loot) (place : Place) :
    Right (loot.modify (fun item => {item with is_blocked := false}) place) := by
  have hsame := sameUnits_modify (f := fun item => {item with is_blocked := false}) (fun _ => rfl)
    loot place
  have hshared : ∀ other,(loot.modify (fun item => {item with is_blocked := false}) place).isShared
      other=loot.isShared other := by
    intro other
    unfold Loot.isShared
    rw [get_modify]
    split
    · rw [Option.any_map]
      refine congrArg (fun p => (loot.get other).any p) (funext fun item => ?_)
      rw [listed_congr (lists_modify _)]
      cases other <;> rfl
    · rw [listed_congr (lists_modify _)]
  have hunits : (loot.modify (fun item => {item with is_blocked := false}) place).units=
      loot.units := by
    unfold Loot.units
    rw [hsame.places,ownOpen_congr hsame (congrFun (lists_modify _) _),
      ownOpen_congr hsame (congrFun (lists_modify _) _)]
    congr 1
    exact List.countP_congr fun other _ => by rw [hshared]
  refine ⟨h.keys.modify _ place,⟨?_,h.tally.counted_of_modify
    (f := fun item => {item with is_blocked := false}) (fun _ => ⟨rfl,rfl,rfl⟩)
    (get_modify loot _ place) (listed_congr (lists_modify _))⟩,hunits ▸ h.fits⟩
  rw [unlootedCount_modify,hunits]
  exact h.tally.count

theorem Right.award (h : Right loot) {outcome : Outcome}
    (hcounts : Counts loot (.award slot outcome)) : Right (loot.award slot outcome) := by
  have hf : ∀ item : LootItem,({item with is_looted := true} : LootItem).is_looted=true ∧
      ({item with is_looted := true} : LootItem).freeforall=item.freeforall ∧
      ({item with is_looted := true} : LootItem).conditional=item.conditional ∧
      ({item with is_looted := true} : LootItem).is_counted=item.is_counted :=
    fun _ => ⟨rfl,rfl,rfl,rfl⟩
  unfold Loot.award
  cases hitem : loot.get (loot.placeOf slot) with
  | none => exact h
  | some item =>
    have hsome : (loot.get (loot.placeOf slot)).isSome=true := by rw [hitem]; rfl
    dsimp only
    split
    · have hshared : loot.isShared (loot.placeOf slot)=true := hcounts hsome
      cases hplace : loot.placeOf slot with
      | item i => exact h.hand (hplace ▸ hshared) hf rfl rfl rfl rfl
      | quest i => exact h.hand (hplace ▸ hshared) hf rfl rfl rfl rfl
    · have hshared : loot.isShared (loot.placeOf slot)=true := hcounts hsome
      cases hplace : loot.placeOf slot with
      | item i => exact h.hand (hplace ▸ hshared) hf rfl rfl rfl rfl
      | quest i => exact h.hand (hplace ▸ hshared) hf rfl rfl rfl rfl
    · exact h
    · exact h
    · exact h.unblock _
    · exact h.unblock _

/-! ## Viewers -/

theorem Keys.fillLists (h : Keys loot) (w : Viewer) : Keys (loot.fillLists w) :=
  fillLists_keeps h
    (fun hempty => h.fill (f := questFilling w) hempty
      ((nodup_wantedBy ..).sublist (List.take_sublist ..)))
    (fun _ h hempty => h.fill (f := ffaFilling w) hempty (nodup_wantedBy ..))
    fun _ h hempty => h.fill (f := conditionalFilling w) hempty (nodup_wantedBy ..)

theorem Tally.fillLists (h : Tally loot) (hcounts : loot.ViewCounts w) :
    Tally (loot.fillLists w) :=
  fillLists_keeps h (fun hempty => h.fillQuestLoot (hcounts.quest hempty))
    (fun _ h _ => h.fillFFALoot w) fun _ h _ => h.fillConditionalLoot w

theorem Right.fillLists (h : Right loot) (hcounts : loot.ViewCounts w) :
    Right (loot.fillLists w) :=
  ⟨h.keys.fillLists w,h.tally.fillLists hcounts,hcounts.fits⟩

theorem Right.autoStore (h : Right loot) (hcounts : AutoCounts w loot slot) :
    Right (loot.autoStore w slot) := by
  unfold Loot.autoStore
  split
  · exact h.store (hcounts ‹_›)
  · exact h

theorem Right.step (h : Right loot) {a : Action} (hcounts : Counts loot a) :
    Right (step loot a) := by
  cases a with
  | view w =>
    have hcounts : loot.ViewCounts w := hcounts
    have hlists := h.fillLists hcounts
    show Right (loot.fillNotNormalLootFor w)
    unfold Loot.fillNotNormalLootFor Loot.autoStoreAll
    split
    · rw [← run_eq_foldl]
      exact run_invariant (fun _ _ hl ha => hl.autoStore ha) hlists (hcounts.currency ‹_›)
    · exact hlists
  | store player slot allowed canStore => exact h.store hcounts
  | give target slot allowed canStore => exact h.masterGive hcounts
  | award slot outcome => exact h.award hcounts

/-- Under a right counter each hand-out of a unit finds it above zero. -/
theorem Right.covered (h : Right loot) {a : Action} (hcounts : Counts loot a) :
    Covered loot a := by
  cases a with
  | view w =>
    have hcounts : loot.ViewCounts w := hcounts
    exact fun hpresent => meets_of_invariant
      (fun _ _ hl ha hcurrency => hl.covered_store (ha hcurrency))
      (fun _ _ hl ha => hl.autoStore ha) (h.fillLists hcounts) (hcounts.currency hpresent)
  | store player slot allowed canStore => exact h.covered_store hcounts
  | give target slot allowed canStore => exact fun hsome => h.ne_zero_of_shared (hcounts hsome)
  | award slot outcome =>
    cases outcome with
    | won player canStore =>
      cases canStore with
      | true => exact fun hsome => h.ne_zero_of_shared (hcounts hsome)
      | false => trivial
    | disenchanted => exact fun hsome => h.ne_zero_of_shared (hcounts hsome)
    | absent => trivial
    | passed lfr => trivial

/-! ## `AddItem` -/

/-- An entry that is there for everybody. -/
def LootItem.plain (item : LootItem) : Bool :=
  !item.freeforall && !item.is_looted && !item.conditional

/-- The entries of a loot before it is shown to anybody. -/
structure Fresh (loot : Loot) : Prop where
  lists : loot.lists=fun _ => []
  /-- The plain entries are counted. -/
  count : loot.unlootedCount=UInt8.ofNat (loot.items.countP (·.plain))
  /-- There are no more entries than slots. -/
  size : loot.items.length ≤ MAX_NR_LOOT_ITEMS
  uncounted : ∀ item∈loot.items,item.is_counted=false

/-- The instance refuses no entry that is counted at once. -/
def Rolled.Kept (r : Rolled) : Prop :=
  ∀ proto,r.proto=some proto → r.li.needs_quest=false → r.li.conditional=false →
    proto.partyLoot=false → ∀ i,(r.drop i).isSome=true

theorem Fresh.addStacks {proto : ItemTemplate} {li : LootStoreItem} {drop : ℕ → Option ℕ}
    (hkept : li.needs_quest=false → li.conditional=false → proto.partyLoot=false →
      ∀ i,(drop i).isSome=true) (bases minmax : ℕ) (h : Fresh loot) :
    Fresh (addStacks proto li drop bases minmax loot) := by
  induction bases generalizing minmax loot with
  | zero => exact h
  | succ bases ih =>
    unfold LootModel.addStacks
    dsimp only
    by_cases hquest : li.needs_quest=true
    · -- quest entries are not counted here
      have hno : ¬(li.needs_quest=false ∧ li.conditional=false ∧ proto.partyLoot=false) :=
        fun hp => by rw [hp.1] at hquest; cases hquest
      rw [if_pos hquest,if_pos hquest,if_neg hno]
      split
      · cases drop bases with
        | none => exact ih _ h
        | some itemid =>
          dsimp only
          exact ih _ ⟨h.lists,h.count,h.size,h.uncounted⟩
      · exact ih _ h
    · rw [if_neg hquest,if_neg hquest]
      split
      · rename_i hroom
        have hplain : ∀ itemid count,(newLootItem proto li itemid count).plain=
            (!proto.partyLoot && !li.conditional) := fun itemid count => by
          simp [newLootItem,LootItem.plain]
        have hpush : ∀ itemid count,Fresh (if li.needs_quest=false ∧ li.conditional=false ∧
            proto.partyLoot=false then
              {loot with
                items := loot.items++[newLootItem proto li itemid count]
                unlootedCount := loot.unlootedCount+1}
            else {loot with items := loot.items++[newLootItem proto li itemid count]}) := by
          intro itemid count
          have hcountP : (loot.items++[newLootItem proto li itemid count]).countP (·.plain)=
              loot.items.countP (·.plain)+(!proto.partyLoot && !li.conditional).toNat := by
            rw [List.countP_append,List.countP_singleton,hplain]
            cases !proto.partyLoot && !li.conditional <;> rfl
          have hsize : (loot.items++[newLootItem proto li itemid count]).length ≤
              MAX_NR_LOOT_ITEMS := by
            rw [List.length_append,List.length_singleton]
            exact hroom
          have huncounted : ∀ item∈loot.items++[newLootItem proto li itemid count],
              item.is_counted=false := fun item hitem =>
            (List.mem_append.mp hitem).elim (h.uncounted item) fun hnew => by
              rw [List.mem_singleton.mp hnew]
              rfl
          split
          · rename_i hp
            refine ⟨h.lists,?_,hsize,huncounted⟩
            dsimp only
            rw [hcountP,hp.2.1,hp.2.2,h.count]
            exact (UInt8.ofNat_add ..).symm
          · rename_i hp
            refine ⟨h.lists,?_,hsize,huncounted⟩
            have hnot : (!proto.partyLoot && !li.conditional)=false := by
              rw [Bool.eq_false_iff]
              intro hb
              simp only [Bool.and_eq_true,Bool.not_eq_true'] at hb
              exact hp ⟨Bool.eq_false_iff.mpr hquest,hb.2,hb.1⟩
            dsimp only
            rw [hcountP,hnot]
            exact h.count
        cases hdrop : drop bases with
        | none =>
          have hno : ¬(li.needs_quest=false ∧ li.conditional=false ∧ proto.partyLoot=false) := by
            rintro ⟨h₁,h₂,h₃⟩
            have hsome := hkept h₁ h₂ h₃ bases
            rw [hdrop] at hsome
            cases hsome
          rw [if_neg hno]
          exact ih _ h
        | some itemid =>
          dsimp only
          exact ih _ (hpush itemid _)
      · exact ih _ h

theorem Fresh.generate (gold : ℕ) {rolls : List Rolled} (hkept : ∀ r∈rolls,r.Kept) :
    Fresh (generate gold rolls) := by
  have hfold : ∀ loot,Fresh loot → Fresh (rolls.foldl Loot.addItem loot) := by
    induction rolls with
    | nil => exact fun _ h => h
    | cons r rolls ih =>
      intro loot h
      refine ih (fun r' hr' => hkept r' (List.mem_cons_of_mem r hr')) _ ?_
      unfold Loot.addItem
      cases hproto : r.proto with
      | none => exact h
      | some proto => exact h.addStacks (hkept r List.mem_cons_self proto hproto) _ _
  exact hfold _ ⟨rfl,rfl,Nat.zero_le _,(by rintro _ ⟨⟩)⟩

/-- The units of a loot before it is shown to anybody are its plain entries. -/
theorem Fresh.units (h : Fresh loot) : loot.units=loot.items.countP (·.plain) := by
  have hown : ∀ kind,loot.ownOpen kind=0 := fun kind => by
    unfold Loot.ownOpen
    rw [h.lists]
    rfl
  have hlisted : ∀ kind index,loot.listed kind index=false := fun kind index => by
    unfold Loot.listed
    rw [h.lists]
    rfl
  unfold Loot.units Loot.places
  rw [hown,hown,List.countP_append,List.countP_map,List.countP_map]
  have hquest : (List.range loot.quest_items.length).countP (loot.isShared∘.quest)=0 := by
    refine List.countP_eq_zero.mpr fun i _ => ?_
    rw [Function.comp_apply,Loot.isShared]
    cases loot.get (.quest i) with
    | none => exact Bool.false_ne_true
    | some item => simp [needsList,hlisted]
  rw [hquest,← countP_range _ loot.items]
  refine List.countP_congr fun i _ => ?_
  rw [Function.comp_apply,Loot.isShared,Loot.get]
  cases loot.items[i]? with
  | none => rfl
  | some item => simp [needsList,hlisted,LootItem.plain]

theorem Fresh.right (h : Fresh loot) : Right loot := by
  refine ⟨fun kind => ?_,⟨?_,fun i item hitem _ _ => ?_⟩,?_⟩
  · rw [h.lists]
    exact List.nodup_nil
  · rw [h.units]
    exact h.count
  · have hno : loot.listed .conditional i=false := by
      unfold Loot.listed
      rw [h.lists]
      rfl
    rw [hno]
    exact h.uncounted item (List.mem_of_getElem? hitem)
  · rw [h.units]
    exact ((List.countP_le_length).trans h.size).trans_lt (by decide)

/-! ## Runs -/

/-- Showing a loot to the players is a run of its own. -/
theorem fillLoot_eq_run (gold : ℕ) (rolls : List Rolled) (viewers : List Viewer) :
    fillLoot gold rolls viewers=run step (generate gold rolls) (viewers.map .view) := by
  rw [run_eq_foldl,List.foldl_map]
  rfl

/-- Whatever a template rolls, as long as the instance refuses no plain entry, along every run
of `FillLoot`, later viewers and hand-outs of units the counter is the number of the obtainable
units, it never passes below zero, and the loot is looted exactly when nothing is left. -/
theorem loot_counter_agrees (gold : ℕ) (rolls : List Rolled) (viewers : List Viewer)
    (actions : List Action) (hkept : ∀ r∈rolls,r.Kept)
    (hcounts : Meets step Counts (generate gold rolls) (viewers.map .view++actions)) :
    Tallied (run step (fillLoot gold rolls viewers) actions) ∧
      Meets step Covered (generate gold rolls) (viewers.map .view++actions) := by
  have hfresh := (Fresh.generate gold hkept).right
  have hrun := run_invariant (fun _ _ h ha => h.step ha) hfresh hcounts
  rw [run_append,← fillLoot_eq_run] at hrun
  exact ⟨hrun.tallied,
    meets_of_invariant (fun _ _ h ha => h.covered ha) (fun _ _ h ha => h.step ha) hfresh hcounts⟩

/-- Two players take their shares until one of them is left. -/
theorem loot_counter_agrees_sample :
    let actions : List Action := [.store 1 0 (fun _ => true) true,.store 1 0 (fun _ => true) true,
      .store 2 2 (fun _ => true) true,.give 1 1 (fun _ => true) true]
    Tallied (run step (fillLoot 0 sampleRolls [sampleViewer 1,sampleViewer 2]) actions) ∧
      Meets step Covered (generate 0 sampleRolls)
        ([sampleViewer 1,sampleViewer 2].map .view++actions) :=
  loot_counter_agrees 0 sampleRolls [sampleViewer 1,sampleViewer 2] _
    (by
      intro r hr
      simp only [sampleRolls,List.mem_cons,List.not_mem_nil,or_false] at hr
      rintro proto - - - - i
      obtain rfl | rfl | rfl := hr <;> rfl)
    (by decide)

/-- The instance refuses the only entry, which is counted and cannot be taken. -/
theorem loot_counter_disagrees :
    ¬Tallied (fillLoot 0 [⟨some ⟨20,false,false⟩,⟨3,1,false,false⟩,1,fun _ => none⟩]
      [sampleViewer 1]) := by
  intro h
  have hcount := h.count
  revert hcount
  decide

end Projectnelth.LootModel
