import Mathlib
import Projectnelth.LootCounting

/-!
# The loot counter over runs

The counter is the number of the obtainable units after `FillLoot` and every run, provided the
instance refuses no plain entry, every listing counts a quest entry once, no more than 255
units come together, and only obtainable units are handed out. Where the instance refuses a
drop, `AddItem` has counted it already.
-/

namespace Projectnelth.LootModel

open KeyedList RunInvariant

variable {loot loot' : Loot} {player slot index : ℕ} {place : Place} {w : Viewer}

/-- The counter is right, and conditional entries bear the mark of the counted ones exactly when
they are listed. -/
structure Tally (loot : Loot) : Prop where
  /-- `unlootedCount` is the number of the units, as a byte. -/
  count : loot.unlootedCount=UInt8.ofNat loot.units
  /-- `is_counted` says that an entry is listed. -/
  counted : ∀ i item,loot.get (.item i)=some item → item.freeforall=false → item.conditional=true →
    item.is_counted=loot.listed .conditional i

/-! ## Listing -/

/-- An entry that is listed is counted when it is free for all or was not listed before. -/
def EnterCounts (f : Filling) (loot : Loot) (index : ℕ) : Prop :=
  ∀ item∈loot.get (f.kind.place index),
    f.counted item=(item.freeforall || !loot.listed f.kind index)

instance (f : Filling) (loot : Loot) (index : ℕ) : Decidable (EnterCounts f loot index) := by
  unfold EnterCounts
  infer_instance

/-- What a filling lists: entries without a mark, of the kind of the list. -/
def Filling.Lists (f : Filling) (item : LootItem) : Prop :=
  item.is_looted=false ∧ (f.kind=.ffa → item.freeforall=true) ∧
    (f.kind=.conditional → item.freeforall=false ∧ item.conditional=true)

theorem lists_questFilling {item : LootItem} (h : (questFilling w).wanted item=true) :
    (questFilling w).Lists item := by
  simp only [questFilling,Bool.and_eq_true,Bool.not_eq_true'] at h
  exact ⟨h.1,(by rintro ⟨⟩),(by rintro ⟨⟩)⟩

theorem lists_ffaFilling {item : LootItem} (h : (ffaFilling w).wanted item=true) :
    (ffaFilling w).Lists item := by
  simp only [ffaFilling,Bool.and_eq_true,Bool.not_eq_true'] at h
  exact ⟨h.1.1,fun _ => h.1.2,(by rintro ⟨⟩)⟩

theorem lists_conditionalFilling {item : LootItem} (h : (conditionalFilling w).wanted item=true) :
    (conditionalFilling w).Lists item := by
  simp only [conditionalFilling,Bool.and_eq_true,Bool.not_eq_true'] at h
  exact ⟨h.1.1.1,(by rintro ⟨⟩),fun _ => ⟨h.1.1.2,h.2⟩⟩

theorem Filling.Lists.noted {f : Filling} {item old : LootItem} (h : f.Lists old)
    (hnoted : Noted item old) : f.Lists item := by
  obtain ⟨hlooted,hffa,_,hconditional⟩ := hnoted
  refine ⟨hlooted.trans h.1,fun hk => hffa.trans (h.2.1 hk),fun hk => ?_⟩
  exact ⟨hffa.trans (h.2.2 hk).1,hconditional.trans (h.2.2 hk).2⟩

theorem listed_enter (f : Filling) {item : LootItem} (hitem : loot.get (f.kind.place index)=some item)
    (kind : Kind) (i : ℕ) : (loot.enter f player index).listed kind i=
      (loot.listed kind i || decide (kind=f.kind ∧ index=i)) := by
  unfold Loot.listed
  rw [lists_enter f kind hitem]
  split
  · rename_i hkind
    rw [List.any_append,List.any_cons,List.any_nil,Bool.or_false]
    simp [hkind]
  · rename_i hkind
    simp [hkind]

theorem sameUnits_enter {f : Filling} (hf : f.Notes) (loot : Loot) (player index : ℕ) :
    SameUnits loot (loot.enter f player index) := by
  refine ⟨length_items_enter f,length_quest_items_enter f,fun other => ?_⟩
  unfold Loot.isFfa
  rw [get_enter]
  split
  · rw [Option.any_map]
    exact congrArg (fun p => (loot.get other).any p) (funext fun item => (hf item).2.1)
  · rfl

/-- An entry that becomes listed is one own unit more where it is free for all. -/
theorem ownOpen_enter {f : Filling} (hf : f.Notes) {item : LootItem}
    (hitem : loot.get (f.kind.place index)=some item) (kind : Kind) :
    (loot.enter f player index).ownOpen kind=
      loot.ownOpen kind+if kind=f.kind then item.freeforall.toNat else 0 := by
  have hffa := (sameUnits_enter hf loot player index).ffa
  have hisFfa : loot.isFfa (f.kind.place index)=item.freeforall := by
    unfold Loot.isFfa
    rw [hitem,Option.any_some]
  unfold Loot.ownOpen
  rw [lists_enter f kind hitem]
  simp only [hffa]
  split
  · rename_i hkind
    rw [List.countP_append,List.countP_singleton]
    simp only [hkind,hisFfa,Bool.not_false,Bool.true_and]
    cases item.freeforall <;> rfl
  · rfl

/-- Where an entry is listed, no other one changes. -/
theorem isShared_enter_of_ne {f : Filling} {item : LootItem}
    (hitem : loot.get (f.kind.place index)=some item) {other : Place}
    (hne : f.kind.place index≠other) :
    (loot.enter f player index).isShared other=loot.isShared other := by
  have hkey : ¬(other.listKind=f.kind ∧ index=other.index) := by
    rintro ⟨hkind,rfl⟩
    refine hne ?_
    rw [← hkind]
    cases other <;> rfl
  unfold Loot.isShared
  rw [get_enter,if_neg hne,listed_enter f hitem,decide_eq_false hkey,Bool.or_false]

theorem units_enter {f : Filling} (hf : f.Notes) {item : LootItem}
    (hitem : loot.get (f.kind.place index)=some item) (hlists : f.Lists item)
    (hcounts : EnterCounts f loot index) :
    (loot.enter f player index).units=loot.units+(f.counted item).toNat := by
  have hcounted : f.counted item=(item.freeforall || !loot.listed f.kind index) :=
    hcounts item hitem
  obtain ⟨hfree,hffa,hconditional⟩ := hlists
  have hsame := sameUnits_enter hf loot player index
  have hget : (loot.enter f player index).get (f.kind.place index)=some (f.note item) := by
    rw [get_enter,if_pos rfl,hitem,Option.map_some]
  have hnoted := hf item
  have hlisted := @listed_enter _ player _ f _ hitem
  -- the shared units, other than the one that is listed, stay
  have hshared : (loot.enter f player index).places.countP (loot.enter f player index).isShared=
      loot.places.countP loot.isShared+(!item.freeforall && !loot.listed f.kind index).toNat := by
    have hold : loot.isShared (f.kind.place index)=(!item.freeforall &&
        (!needsList (f.kind.place index) item ||
          loot.listed (f.kind.place index).listKind (f.kind.place index).index)) := by
      unfold Loot.isShared
      rw [hitem,Option.any_some,hfree,Bool.not_false,Bool.and_true]
    have hnew : (loot.enter f player index).isShared (f.kind.place index)=(!item.freeforall &&
        (!needsList (f.kind.place index) item ||
          (loot.enter f player index).listed (f.kind.place index).listKind
            (f.kind.place index).index)) := by
      have hneeds : needsList (f.kind.place index) (f.note item)=
          needsList (f.kind.place index) item := by
        cases f.kind
        · rfl
        · exact hnoted.2.2.2
        · exact hnoted.2.2.2
      unfold Loot.isShared
      rw [hget,Option.any_some,hnoted.1,hnoted.2.1,hfree,Bool.not_false,Bool.and_true,hneeds]
    rw [hsame.places]
    cases hffa' : item.freeforall with
    | true =>
      rw [hffa'] at hold hnew
      rw [Bool.not_true,Bool.false_and,Bool.toNat_false,Nat.add_zero]
      refine List.countP_congr fun other _ => ?_
      by_cases hne : f.kind.place index=other
      · rw [← hne,hold,hnew]
        rfl
      · rw [isShared_enter_of_ne hitem hne]
    | false =>
      have hkind : (f.kind.place index).listKind=f.kind ∧ (f.kind.place index).index=index ∧
          needsList (f.kind.place index) item=true := by
        cases hk : f.kind with
        | quest => exact ⟨rfl,rfl,rfl⟩
        | ffa => exact absurd (hffa hk) (by rw [hffa']; exact Bool.false_ne_true)
        | conditional => exact ⟨rfl,rfl,(hconditional hk).2⟩
      rw [hffa',hkind.1,hkind.2.1,hkind.2.2] at hold hnew
      simp only [Bool.not_false,Bool.true_and,Bool.not_true,Bool.false_or] at hold hnew
      rw [hlisted,decide_eq_true ⟨rfl,rfl⟩,Bool.or_true] at hnew
      cases hl : loot.listed f.kind index with
      | true =>
        rw [hl] at hold
        refine List.countP_congr fun other _ => ?_
        by_cases hne : f.kind.place index=other
        · rw [← hne,hold,hnew]
        · rw [isShared_enter_of_ne hitem hne]
      | false =>
        rw [hl] at hold
        exact countP_add_one (nodup_places loot) (mem_places hitem) hold hnew fun other hne =>
          isShared_enter_of_ne hitem (Ne.symm hne)
  have hown := @ownOpen_enter _ player _ _ hf _ hitem
  unfold Loot.units
  rw [hshared,hown .ffa,hown .quest,hcounted]
  cases hk : f.kind with
  | quest =>
    rw [if_neg (by decide),if_pos rfl]
    cases item.freeforall <;> cases loot.listed .quest index <;> simp <;> omega
  | ffa =>
    rw [if_pos rfl,if_neg (by decide),hffa hk]
    simp
    omega
  | conditional =>
    rw [if_neg (by decide),if_neg (by decide),(hconditional hk).1]
    simp
    omega

/-- A filling notes in a conditional entry that it is counted. -/
def Filling.Marks (f : Filling) : Prop :=
  f.kind=.conditional → ∀ item,(f.note item).is_counted=true

/-- A listing that counts right keeps the counter right. -/
theorem Tally.enter (h : Tally loot) {f : Filling} (hf : f.Notes) (hmarks : f.Marks)
    {item : LootItem} (hitem : loot.get (f.kind.place index)=some item) (hlists : f.Lists item)
    (hcounts : EnterCounts f loot index) : Tally (loot.enter f player index) := by
  refine ⟨?_,fun i other hother hffa hconditional => ?_⟩
  · rw [units_enter hf hitem hlists hcounts]
    unfold Loot.enter
    rw [hitem]
    dsimp only
    rw [h.count,UInt8.ofNat_add]
    cases f.counted item <;> rfl
  · rw [listed_enter f hitem]
    rw [get_enter] at hother
    by_cases hplace : f.kind.place index=.item i
    · rw [if_pos hplace,← hplace,hitem,Option.map_some] at hother
      have hother := Option.some.inj hother
      have hffa' : item.freeforall=false := (hf item).2.1.symm.trans (hother ▸ hffa)
      have hkind : f.kind=.conditional ∧ index=i := by
        cases hk : f.kind with
        | quest => rw [hk] at hplace; cases hplace
        | ffa =>
          have hno := hlists.2.1 hk
          rw [hffa'] at hno
          cases hno
        | conditional => rw [hk] at hplace; exact ⟨rfl,Place.item.inj hplace⟩
      rw [decide_eq_true ⟨hkind.1.symm,hkind.2⟩,Bool.or_true,← hother]
      exact hmarks hkind.1 item
    · rw [if_neg hplace] at hother
      have hkey : ¬(Kind.conditional=f.kind ∧ index=i) := by
        rintro ⟨hkind,rfl⟩
        exact hplace (by rw [← hkind]; rfl)
      rw [decide_eq_false hkey,Bool.or_false]
      exact h.counted i other hother hffa hconditional

/-- The indices of a filling are those of entries that it lists. -/
def Filling.ListsAll (f : Filling) (loot : Loot) (indices : List ℕ) : Prop :=
  ∀ i∈indices,∃ item,loot.get (f.kind.place i)=some item ∧ f.Lists item

theorem Filling.ListsAll.enter {f : Filling} {i : ℕ} {indices : List ℕ} (hf : f.Notes)
    (h : f.ListsAll loot (i::indices)) : f.ListsAll (loot.enter f player i) indices := by
  intro j hj
  obtain ⟨item,hitem,hlists⟩ := h j (List.mem_cons_of_mem i hj)
  rw [get_enter]
  split
  · exact ⟨f.note item,by rw [hitem,Option.map_some],hlists.noted (hf item)⟩
  · exact ⟨item,hitem,hlists⟩

/-- Listings that count right keep the counter right. -/
theorem Tally.enterAll {f : Filling} (hf : f.Notes) (hmarks : f.Marks) {indices : List ℕ}
    (h : Tally loot) (hlists : f.ListsAll loot indices)
    (hcounts : Meets (Loot.enter f player) (EnterCounts f) loot indices) :
    Tally (loot.enterAll f player indices) := by
  induction indices generalizing loot with
  | nil => exact h
  | cons i indices ih =>
    obtain ⟨item,hitem,hlist⟩ := hlists i List.mem_cons_self
    exact ih (h.enter hf hmarks hitem hlist hcounts.1) (hlists.enter hf) hcounts.2

/-- A filling that counts right wherever the counter is right does so throughout. -/
theorem Tally.meets {f : Filling} (hf : f.Notes) (hmarks : f.Marks) {indices : List ℕ}
    (hauto : ∀ (loot : Loot) (i : ℕ) (item : LootItem),Tally loot →
      loot.get (f.kind.place i)=some item → f.Lists item → EnterCounts f loot i)
    (h : Tally loot) (hlists : f.ListsAll loot indices) :
    Meets (Loot.enter f player) (EnterCounts f) loot indices := by
  induction indices generalizing loot with
  | nil => trivial
  | cons i indices ih =>
    obtain ⟨item,hitem,hlist⟩ := hlists i List.mem_cons_self
    have hcounts := hauto loot i item h hitem hlist
    exact ⟨hcounts,ih (h.enter hf hmarks hitem hlist hcounts) (hlists.enter hf)⟩

/-- The free-for-all entries are counted for each player. -/
theorem Tally.fillFFALoot (h : Tally loot) (w : Viewer) : Tally (loot.fillFFALoot w) := by
  have hlists : (ffaFilling w).ListsAll loot
      (loot.wantedBy (ffaFilling w) loot.items.length) := fun i hi => by
    obtain ⟨_,item,hitem,hwanted⟩ := mem_wantedBy.mp hi
    exact ⟨item,hitem,lists_ffaFilling hwanted⟩
  refine h.enterAll (notes_ffaFilling w) (by rintro ⟨⟩) hlists
    (Tally.meets (notes_ffaFilling w) (by rintro ⟨⟩) (fun loot i item _ hitem hlist other hother => ?_) h
      hlists)
  rw [Option.some.inj (hother.symm.trans hitem),hlist.2.1 rfl]
  rfl

/-- The conditional entries are counted once. -/
theorem Tally.fillConditionalLoot (h : Tally loot) (w : Viewer) :
    Tally (loot.fillConditionalLoot w) := by
  have hlists : (conditionalFilling w).ListsAll loot
      (loot.wantedBy (conditionalFilling w) loot.items.length) := fun i hi => by
    obtain ⟨_,item,hitem,hwanted⟩ := mem_wantedBy.mp hi
    exact ⟨item,hitem,lists_conditionalFilling hwanted⟩
  have hmarks : (conditionalFilling w).Marks := fun _ _ => rfl
  refine h.enterAll (notes_conditionalFilling w) hmarks hlists
    (Tally.meets (notes_conditionalFilling w) hmarks
      (fun loot i item h hitem hlist other hother => ?_) h hlists)
  obtain ⟨hffa,hconditional⟩ := hlist.2.2 rfl
  rw [Option.some.inj (hother.symm.trans hitem),hffa]
  exact congrArg not (h.counted i item hitem hffa hconditional)

/-- The indices that `FillQuestLoot` lists. -/
def Loot.questIndices (loot : Loot) (w : Viewer) : List ℕ :=
  (loot.wantedBy (questFilling w) loot.quest_items.length).take
    (MAX_NR_LOOT_ITEMS-loot.items.length)

theorem Tally.fillQuestLoot (h : Tally loot)
    (hcounts : Meets (Loot.enter (questFilling w) w.player) (EnterCounts (questFilling w)) loot
      (loot.questIndices w)) : Tally (loot.fillQuestLoot w) := by
  refine h.enterAll (notes_questFilling w) (by rintro ⟨⟩) (fun i hi => ?_) hcounts
  obtain ⟨_,item,hitem,hwanted⟩ := mem_wantedBy.mp ((List.take_sublist ..).subset hi)
  exact ⟨item,hitem,lists_questFilling hwanted⟩

/-! ## Steps -/

/-- A slot of the currency loop stores one of the units. -/
def AutoCounts (w : Viewer) (loot : Loot) (slot : ℕ) : Prop :=
  loot.isCurrency w slot=true → loot.StoreCounts w.player slot w.allowed (w.canStore slot)

instance (w : Viewer) (loot : Loot) (slot : ℕ) : Decidable (AutoCounts w loot slot) := by
  unfold AutoCounts
  infer_instance

/-- A viewer's quest entries are counted once, the currency loop stores units, and no more than
255 units come together. -/
structure Loot.ViewCounts (loot : Loot) (w : Viewer) : Prop where
  /-- A quest entry is counted when it is listed first. -/
  quest : (loot.listOf .quest w.player).isEmpty=true →
    Meets (Loot.enter (questFilling w) w.player) (EnterCounts (questFilling w)) loot
      (loot.questIndices w)
  currency : w.present=true → Meets (Loot.autoStore w) (AutoCounts w) (loot.fillLists w)
    (List.range ((loot.fillLists w).maxSlotFor w.player))
  /-- The counter is a byte. -/
  fits : (loot.fillLists w).units < 256

instance (loot : Loot) (w : Viewer) : Decidable (loot.ViewCounts w) :=
  decidable_of_iff (((loot.listOf .quest w.player).isEmpty=true →
      Meets (Loot.enter (questFilling w) w.player) (EnterCounts (questFilling w)) loot
        (loot.questIndices w)) ∧
    (w.present=true → Meets (Loot.autoStore w) (AutoCounts w) (loot.fillLists w)
      (List.range ((loot.fillLists w).maxSlotFor w.player))) ∧
    (loot.fillLists w).units < 256)
    ⟨fun h => ⟨h.1,h.2.1,h.2.2⟩,fun h => ⟨h.quest,h.currency,h.fits⟩⟩

/-- What is handed out of a loot is one of its units. -/
def Counts (loot : Loot) : Action → Prop
  | .view w => loot.ViewCounts w
  | .store player slot allowed canStore => loot.StoreCounts player slot allowed canStore
  | .give _ slot allowed canStore =>
      (loot.givable slot allowed canStore).isSome=true → loot.isShared (loot.placeOf slot)=true
  | .award slot (.won _ true) | .award slot .disenchanted =>
      (loot.get (loot.placeOf slot)).isSome=true → loot.isShared (loot.placeOf slot)=true
  | _ => True

instance (loot : Loot) : (a : Action) → Decidable (Counts loot a)
  | .view w => inferInstanceAs (Decidable (loot.ViewCounts w))
  | .store player slot allowed canStore =>
      inferInstanceAs (Decidable (loot.StoreCounts player slot allowed canStore))
  | .give _ _ _ _ | .award _ (.won _ true) | .award _ .disenchanted =>
      inferInstanceAs (Decidable (_=true → _=true))
  | .award _ (.won _ false) | .award _ .absent | .award _ (.passed _) =>
      inferInstanceAs (Decidable True)

/-- A hand-out finds the counter above zero. -/
def Covered (loot : Loot) : Action → Prop
  | .view w => w.present=true → Meets (Loot.autoStore w)
      (fun loot slot => loot.isCurrency w slot=true →
        (loot.storable w.player slot w.allowed (w.canStore slot)).isSome=true →
          loot.unlootedCount≠0)
      (loot.fillLists w) (List.range ((loot.fillLists w).maxSlotFor w.player))
  | .store player slot allowed canStore =>
      (loot.storable player slot allowed canStore).isSome=true → loot.unlootedCount≠0
  | .give _ slot allowed canStore =>
      (loot.givable slot allowed canStore).isSome=true → loot.unlootedCount≠0
  | .award slot (.won _ true) | .award slot .disenchanted =>
      (loot.get (loot.placeOf slot)).isSome=true → loot.unlootedCount≠0
  | _ => True

/-- What is to hold of the counter of a loot. -/
structure Tallied (loot : Loot) : Prop where
  /-- `unlootedCount` is the number of the units. -/
  count : loot.unlootedCount.toNat=loot.units
  /-- `isLooted` says that nothing is left for anybody. -/
  looted : loot.isLooted=true ↔ loot.gold=0 ∧ loot.units=0

/-- The invariant of the runs. -/
structure Right (loot : Loot) : Prop where
  /-- No list holds an entry twice. -/
  keys : Keys loot
  /-- The counter is right. -/
  tally : Tally loot
  fits : loot.units < 256

theorem Right.toNat (h : Right loot) : loot.unlootedCount.toNat=loot.units := by
  rw [h.tally.count,UInt8.toNat_ofNat_of_lt' h.fits]

theorem Right.tallied (h : Right loot) : Tallied loot := by
  refine ⟨h.toNat,?_⟩
  unfold Loot.isLooted
  rw [Bool.and_eq_true,decide_eq_true_eq,decide_eq_true_eq,← h.toNat,← UInt8.toNat_inj]
  rfl

theorem Right.ne_zero (h : Right loot) (hunits : loot.units≠0) : loot.unlootedCount≠0 := by
  intro hzero
  refine hunits ?_
  rw [← h.toNat,hzero]
  rfl

theorem Tally.sub_one (h : Tally loot) (hunits : loot.units=loot'.units+1)
    (hcount : loot'.unlootedCount=loot.unlootedCount-1)
    (hcounted : ∀ i item,loot'.get (.item i)=some item → item.freeforall=false →
      item.conditional=true → item.is_counted=loot'.listed .conditional i) : Tally loot' := by
  refine ⟨?_,hcounted⟩
  rw [hcount,h.count,hunits,UInt8.ofNat_add]
  exact UInt8.add_sub_cancel ..

/-- A write that keeps what the counted mark speaks of. -/
theorem Tally.counted_of_modify (h : Tally loot) {f : LootItem → LootItem}
    (hf : ∀ item,(f item).freeforall=item.freeforall ∧ (f item).conditional=item.conditional ∧
      (f item).is_counted=item.is_counted)
    (hget : ∀ other,loot'.get other=if place=other then (loot.get other).map f else loot.get other)
    (hlisted : ∀ kind index,loot'.listed kind index=loot.listed kind index) (i : ℕ)
    (item : LootItem) (hitem : loot'.get (.item i)=some item) (hffa : item.freeforall=false)
    (hconditional : item.conditional=true) : item.is_counted=loot'.listed .conditional i := by
  rw [hget] at hitem
  rw [hlisted]
  split at hitem
  · obtain ⟨old,hold,rfl⟩ := Option.map_eq_some_iff.mp hitem
    obtain ⟨h₁,h₂,h₃⟩ := hf old
    exact h₃.trans (h.counted i old hold (h₁ ▸ hffa) (h₂ ▸ hconditional))
  · exact h.counted i item hitem hffa hconditional

end Projectnelth.LootModel
