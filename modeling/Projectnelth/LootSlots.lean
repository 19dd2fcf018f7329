import Mathlib
import Projectnelth.LootView
import Projectnelth.LootCounter
import Projectnelth.SortedIndices

/-!
# The slots of a loot

Filling and looting keep the shape of a loot: the lists of a player name entries of their kind,
the quest list in the order of the entries and no longer than the window has room. So a slot that
is shown gives its own entry. The currency loop of `FillNotNormalLootFor` takes the number of a
quest slot for an index of `quest_items`, which is right only while no quest entry was left out.
-/

namespace Projectnelth.LootModel

open KeyedList RunInvariant SortedIndices

variable {loot loot' : Loot} {player slot index : ℕ} {place : Place} {w : Viewer}

/-! ## The shape -/

/-- What decides the lists an entry may be in: whether it is free for all and conditional. -/
def LootItem.flags (item : LootItem) : Bool×Bool := (item.freeforall,item.conditional)

/-- The flags of the entry at a place. -/
def Loot.flagsAt (loot : Loot) (place : Place) : Option (Bool×Bool) :=
  (loot.get place).map LootItem.flags

/-- The flags of the entries in a list. -/
def Kind.Fits : Kind → Bool×Bool → Prop
  | .quest,_ => True
  | .ffa,flags => flags.1=true
  | .conditional,flags => flags=(false,true)

/-- The keys of a list that belong to a player. -/
def Loot.indicesOf (loot : Loot) (kind : Kind) (player : ℕ) : List ℕ :=
  (loot.listOf kind player).map QuestItem.index

/-- Writes that keep the entries and the lists, up to marks and counts. -/
structure SameShape (loot loot' : Loot) : Prop where
  /-- As many entries. -/
  items : loot'.items.length=loot.items.length
  /-- As many quest entries. -/
  quest_items : loot'.quest_items.length=loot.quest_items.length
  flags : ∀ place,loot'.flagsAt place=loot.flagsAt place
  /-- The lists hold the same entries. -/
  lists : ∀ kind,(loot'.lists kind).map QuestItem.key=(loot.lists kind).map QuestItem.key

theorem SameShape.refl (loot : Loot) : SameShape loot loot := ⟨rfl,rfl,fun _ => rfl,fun _ => rfl⟩

theorem SameShape.trans {mid : Loot} (h : SameShape loot mid) (h' : SameShape mid loot') :
    SameShape loot loot' :=
  ⟨h'.items.trans h.items,h'.quest_items.trans h.quest_items,
    fun place => (h'.flags place).trans (h.flags place),
    fun kind => (h'.lists kind).trans (h.lists kind)⟩

theorem flagsAt_modify {f : LootItem → LootItem} (hf : ∀ item,(f item).flags=item.flags)
    (loot : Loot) (place other : Place) :
    (loot.modify f place).flagsAt other=loot.flagsAt other := by
  unfold Loot.flagsAt
  rw [get_modify]
  split
  · rw [Option.map_map]
    exact congrArg (fun g => (loot.get other).map g) (funext hf)
  · rfl

theorem sameShape_modify {f : LootItem → LootItem} (hf : ∀ item,(f item).flags=item.flags)
    (loot : Loot) (place : Place) : SameShape loot (loot.modify f place) :=
  ⟨length_items_modify f,length_quest_items_modify f,flagsAt_modify hf loot place,
    fun kind => by rw [lists_modify]⟩

theorem sameShape_markOwn (loot : Loot) (player index : ℕ) (own : Option Kind) :
    SameShape loot (loot.markOwn player index own) := by
  refine ⟨by rw [items_markOwn],by rw [quest_items_markOwn],fun place => ?_,fun kind => ?_⟩
  · unfold Loot.flagsAt
    rw [get_markOwn]
  · cases own with
    | none => rfl
    | some marked =>
      rw [lists_markOwn]
      split
      · exact map_key_replace ..
      · rfl

theorem sameShape_give (loot : Loot) (place : Place) (player count : ℕ) :
    SameShape loot (loot.give place player count) := by
  refine ⟨rfl,rfl,fun other => ?_,fun _ => rfl⟩
  unfold Loot.flagsAt
  rw [get_give]

theorem sameShape_countDown (loot : Loot) : SameShape loot loot.countDown := by
  refine ⟨rfl,rfl,fun other => ?_,fun _ => rfl⟩
  unfold Loot.flagsAt
  rw [get_countDown]

theorem flags_markShared (item : LootItem) : (markShared item).flags=item.flags := by
  unfold markShared
  split <;> rfl

theorem sameShape_storeLootItem (loot : Loot) (player slot : ℕ) (allowed : LootItem → Bool)
    (canStore : Bool) : SameShape loot (loot.storeLootItem player slot allowed canStore) := by
  unfold Loot.storeLootItem
  split
  · exact .refl loot
  · exact (((sameShape_give ..).trans (sameShape_markOwn ..)).trans
      (sameShape_modify flags_markShared ..)).trans (sameShape_countDown _)

theorem sameShape_masterGive (loot : Loot) (target slot : ℕ) (allowed : LootItem → Bool)
    (canStore : Bool) : SameShape loot (loot.masterGive target slot allowed canStore) := by
  unfold Loot.masterGive
  split
  · exact .refl loot
  · refine ((sameShape_give ..).trans (sameShape_modify ?_ ..)).trans (sameShape_countDown _)
    exact fun _ => rfl

theorem sameShape_award (loot : Loot) (slot : ℕ) (outcome : Outcome) :
    SameShape loot (loot.award slot outcome) := by
  have hblocked := fun place => sameShape_modify
    (f := fun item => {item with is_blocked := false}) (fun _ => rfl) loot place
  unfold Loot.award
  split
  · exact .refl loot
  dsimp only
  split
  · refine ((sameShape_give ..).trans (sameShape_modify ?_ ..)).trans (sameShape_countDown _)
    exact fun _ => rfl
  · refine (sameShape_modify ?_ ..).trans (sameShape_countDown _)
    exact fun _ => rfl
  · exact .refl loot
  · exact .refl loot
  · exact hblocked _
  · exact hblocked _

theorem sameShape_autoStoreAll (loot : Loot) (w : Viewer) :
    SameShape loot (loot.autoStoreAll w) := by
  have hloop : ∀ (slots : List ℕ) (loot : Loot),
      SameShape loot (slots.foldl (Loot.autoStore w) loot) := by
    intro slots
    induction slots with
    | nil => exact SameShape.refl
    | cons slot slots ih =>
      intro loot
      have hone : SameShape loot (loot.autoStore w slot) := by
        unfold Loot.autoStore
        split
        · exact sameShape_storeLootItem ..
        · exact .refl loot
      exact hone.trans (ih _)
  unfold Loot.autoStoreAll
  split
  · exact hloop _ loot
  · exact .refl loot

theorem indicesOf_eq (loot : Loot) (kind : Kind) (player : ℕ) :
    loot.indicesOf kind player=
      (((loot.lists kind).map QuestItem.key).filter (·.1=player)).map Prod.snd := by
  unfold Loot.indicesOf Loot.listOf
  rw [List.filter_map,List.map_map]
  rfl

/-! ## The invariant -/

/-- The lists of the players fit the entries. -/
structure Slotted (loot : Loot) : Prop where
  /-- No list holds an entry twice. -/
  keys : Keys loot
  /-- The entries have slots. -/
  items : loot.items.length ≤ MAX_NR_LOOT_ITEMS
  /-- The quest entries are few. -/
  quest_items : loot.quest_items.length ≤ MAX_NR_QUEST_ITEMS
  fits : ∀ kind,∀ q∈loot.lists kind,∃ flags∈loot.flagsAt (kind.place q.index),kind.Fits flags
  /-- The quest list of a player is in the order of the entries. -/
  sorted : ∀ player,(loot.indicesOf .quest player).Pairwise fun a b => a < b
  /-- With the quest entries of a player the window is not over full. -/
  room : ∀ player,(loot.indicesOf .quest player).length ≤ MAX_NR_LOOT_ITEMS-loot.items.length

theorem Slotted.same (h : Slotted loot) (hsame : SameShape loot loot') : Slotted loot' := by
  have hindices : ∀ kind player,loot'.indicesOf kind player=loot.indicesOf kind player := by
    intro kind player
    rw [indicesOf_eq,indicesOf_eq,hsame.lists]
  constructor
  · intro kind
    rw [hsame.lists]
    exact h.keys kind
  · rw [hsame.items]
    exact h.items
  · rw [hsame.quest_items]
    exact h.quest_items
  · intro kind q hq
    have hkey : q.key∈(loot.lists kind).map QuestItem.key := by
      rw [← hsame.lists]
      exact List.mem_map_of_mem hq
    obtain ⟨old,hold,heq⟩ := List.mem_map.mp hkey
    have hindex : old.index=q.index := congrArg Prod.snd heq
    rw [hsame.flags,← hindex]
    exact h.fits kind old hold
  · intro player
    rw [hindices]
    exact h.sorted player
  · intro player
    rw [hindices,hsame.items]
    exact h.room player

/-! ## Filling -/

theorem flagsAt_enterAll {f : Filling} (hf : f.Notes) (indices : List ℕ) (loot : Loot)
    (place : Place) : (loot.enterAll f player indices).flagsAt place=loot.flagsAt place := by
  induction indices generalizing loot with
  | nil => rfl
  | cons i indices ih =>
    refine (ih (loot.enter f player i)).trans ?_
    unfold Loot.flagsAt
    rw [get_enter]
    split
    · rw [Option.map_map]
      refine congrArg (fun g => (loot.get place).map g) (funext fun item => ?_)
      exact Prod.ext (hf item).2.1 (hf item).2.2.2
    · rfl

theorem lists_enterAll {f : Filling} (indices : List ℕ)
    (hthere : ∀ i∈indices,(loot.get (f.kind.place i)).isSome=true) (kind : Kind) :
    (loot.enterAll f player indices).lists kind=
      if kind=f.kind then loot.lists kind++indices.map fun i => ⟨player,i,false⟩
      else loot.lists kind := by
  induction indices generalizing loot with
  | nil => simp [Loot.enterAll]
  | cons i indices ih =>
    obtain ⟨item,hitem⟩ := Option.isSome_iff_exists.mp (hthere i List.mem_cons_self)
    have hrest : ∀ j∈indices,((loot.enter f player i).get (f.kind.place j)).isSome=true := by
      intro j hj
      have hj' := hthere j (List.mem_cons_of_mem i hj)
      rw [get_enter]
      split
      · rwa [Option.isSome_map]
      · exact hj'
    have hlists := @lists_enter loot player _ item f kind hitem
    refine (ih hrest).trans ?_
    rw [hlists]
    split
    · simp
    · rfl

theorem indicesOf_enterAll {f : Filling} {indices : List ℕ}
    (hthere : ∀ i∈indices,(loot.get (f.kind.place i)).isSome=true) (kind : Kind) (other : ℕ) :
    (loot.enterAll f player indices).indicesOf kind other=
      loot.indicesOf kind other++if kind=f.kind ∧ other=player then indices else [] := by
  unfold Loot.indicesOf Loot.listOf
  rw [lists_enterAll indices hthere]
  by_cases hkind : kind=f.kind
  · rw [if_pos hkind,List.filter_append,List.map_append,List.filter_map,List.map_map]
    by_cases hother : other=player
    · simp [hkind,hother,Function.comp_def]
    · have hne : ¬player=other := fun h => hother h.symm
      simp [hother,hne,Function.comp_def]
  · simp [hkind]

theorem Slotted.fill (h : Slotted loot) {f : Filling} (hf : f.Notes) {indices : List ℕ}
    (hempty : (loot.listOf f.kind player).isEmpty=true)
    (hsorted : indices.Pairwise fun a b => a < b)
    (hfits : ∀ i∈indices,∃ flags∈loot.flagsAt (f.kind.place i),f.kind.Fits flags)
    (hroom : f.kind=.quest → indices.length ≤ MAX_NR_LOOT_ITEMS-loot.items.length) :
    Slotted (loot.enterAll f player indices) := by
  have hthere : ∀ i∈indices,(loot.get (f.kind.place i)).isSome=true := by
    intro i hi
    obtain ⟨flags,hflags,_⟩ := hfits i hi
    rw [← Option.isSome_map (f := LootItem.flags)]
    exact Option.isSome_of_mem hflags
  have hlists := @lists_enterAll loot player f indices hthere
  have hlengths := @length_enterAll player f indices loot
  have hnone : loot.indicesOf f.kind player=[] := by
    unfold Loot.indicesOf
    rw [List.isEmpty_iff.mp hempty,List.map_nil]
  have hindices : ∀ other,(loot.enterAll f player indices).indicesOf .quest other=
      loot.indicesOf .quest other ∨ f.kind=.quest ∧
        (loot.enterAll f player indices).indicesOf .quest other=indices := by
    intro other
    rw [indicesOf_enterAll hthere]
    by_cases hnew : Kind.quest=f.kind ∧ other=player
    · obtain ⟨hkind,rfl⟩ := hnew
      rw [if_pos ⟨hkind,rfl⟩,hkind,hnone,List.nil_append]
      exact Or.inr ⟨rfl,rfl⟩
    · rw [if_neg hnew,List.append_nil]
      exact Or.inl rfl
  constructor
  · exact h.keys.fill hempty (hsorted.imp ne_of_lt)
  · rw [hlengths.1]
    exact h.items
  · rw [hlengths.2]
    exact h.quest_items
  · intro kind q hq
    rw [flagsAt_enterAll hf]
    rw [hlists] at hq
    split at hq
    · rename_i hkind
      rcases List.mem_append.mp hq with hold | hnew
      · exact h.fits kind q hold
      · obtain ⟨i,hi,rfl⟩ := List.mem_map.mp hnew
        rw [hkind]
        exact hfits i hi
    · exact h.fits kind q hq
  · intro other
    rcases hindices other with heq | ⟨_,heq⟩
    · rw [heq]
      exact h.sorted other
    · rw [heq]
      exact hsorted
  · intro other
    rw [hlengths.1]
    rcases hindices other with heq | ⟨hkind,heq⟩
    · rw [heq]
      exact h.room other
    · rw [heq]
      exact hroom hkind

/-- The wanted indices are in the order of the entries. -/
theorem sorted_wantedBy (loot : Loot) (f : Filling) (size : ℕ) :
    (loot.wantedBy f size).Pairwise fun a b => a < b :=
  List.pairwise_lt_range.filter _

theorem fits_wantedBy {f : Filling} {size : ℕ}
    (hlists : ∀ item,f.wanted item=true → f.Lists item) :
    ∀ i∈loot.wantedBy f size,∃ flags∈loot.flagsAt (f.kind.place i),f.kind.Fits flags := by
  intro i hi
  obtain ⟨_,item,hitem,hwanted⟩ := mem_wantedBy.mp hi
  obtain ⟨_,hffa,hconditional⟩ := hlists item hwanted
  refine ⟨item.flags,Option.mem_map_of_mem _ hitem,?_⟩
  cases hkind : f.kind with
  | quest => trivial
  | ffa => exact hffa hkind
  | conditional => exact Prod.ext (hconditional hkind).1 (hconditional hkind).2

theorem Slotted.fillLists (h : Slotted loot) (w : Viewer) : Slotted (loot.fillLists w) := by
  refine fillLists_keeps h (fun hempty => ?_) (fun _ h hempty => ?_) fun _ h hempty => ?_
  · refine h.fill (f := questFilling w) (notes_questFilling w) hempty
      ((sorted_wantedBy ..).sublist (List.take_sublist ..)) (fun i hi => ?_) fun _ => ?_
    · exact fits_wantedBy (fun _ => lists_questFilling) i (List.mem_of_mem_take hi)
    · exact List.length_take_le ..
  · exact h.fill (f := ffaFilling w) (notes_ffaFilling w) hempty (sorted_wantedBy ..)
      (fits_wantedBy fun _ => lists_ffaFilling) (by simp [ffaFilling])
  · exact h.fill (f := conditionalFilling w) (notes_conditionalFilling w) hempty
      (sorted_wantedBy ..) (fits_wantedBy fun _ => lists_conditionalFilling)
      (by simp [conditionalFilling])

theorem Slotted.view (h : Slotted loot) (w : Viewer) : Slotted (loot.fillNotNormalLootFor w) :=
  (h.fillLists w).same (sameShape_autoStoreAll _ w)

theorem Slotted.step (h : Slotted loot) (a : Action) : Slotted (step loot a) := by
  cases a with
  | view w => exact h.view w
  | store player slot allowed canStore => exact h.same (sameShape_storeLootItem ..)
  | give target slot allowed canStore => exact h.same (sameShape_masterGive ..)
  | award slot outcome => exact h.same (sameShape_award ..)

/-- No list of a loot grows above its limit. -/
theorem length_addStacks (proto : ItemTemplate) (li : LootStoreItem) (drop : ℕ → Option ℕ)
    (bases minmax : ℕ) (loot : Loot) (hitems : loot.items.length ≤ MAX_NR_LOOT_ITEMS)
    (hquest : loot.quest_items.length ≤ MAX_NR_QUEST_ITEMS) :
    (addStacks proto li drop bases minmax loot).items.length ≤ MAX_NR_LOOT_ITEMS ∧
      (addStacks proto li drop bases minmax loot).quest_items.length ≤ MAX_NR_QUEST_ITEMS := by
  induction bases generalizing minmax loot with
  | zero => exact ⟨hitems,hquest⟩
  | succ bases ih =>
    unfold addStacks
    dsimp only
    cases hneeds : li.needs_quest <;> cases drop bases <;> dsimp only <;>
      split_ifs <;> refine ih _ _ ?_ ?_ <;> simp_all

/-- Before it is shown to anybody a loot has no lists. -/
theorem slotted_generate (gold : ℕ) (rolls : List Rolled) : Slotted (generate gold rolls) := by
  have hlengths : ∀ loot : Loot,loot.items.length ≤ MAX_NR_LOOT_ITEMS →
      loot.quest_items.length ≤ MAX_NR_QUEST_ITEMS →
      (rolls.foldl Loot.addItem loot).items.length ≤ MAX_NR_LOOT_ITEMS ∧
        (rolls.foldl Loot.addItem loot).quest_items.length ≤ MAX_NR_QUEST_ITEMS := by
    induction rolls with
    | nil => exact fun _ hitems hquest => ⟨hitems,hquest⟩
    | cons r rolls ih =>
      intro loot hitems hquest
      rw [List.foldl_cons]
      unfold Loot.addItem
      split
      · exact ih loot hitems hquest
      · obtain ⟨hitems',hquest'⟩ := length_addStacks _ r.li r.drop _ _ loot hitems hquest
        exact ih _ hitems' hquest'
  obtain ⟨hitems,hquest⟩ := hlengths (Loot.empty gold) (Nat.zero_le _) (Nat.zero_le _)
  have hnone := (generate_fields gold rolls).1
  have hindices : ∀ player,(generate gold rolls).indicesOf .quest player=[] := by
    intro player
    rw [indicesOf_eq,hnone]
    rfl
  constructor
  · intro kind
    rw [hnone]
    exact List.nodup_nil
  · exact hitems
  · exact hquest
  · intro kind q hq
    rw [hnone] at hq
    cases hq
  · intro player
    rw [hindices]
    exact List.Pairwise.nil
  · intro player
    rw [hindices]
    exact Nat.zero_le _

theorem slotted_run (gold : ℕ) (rolls : List Rolled) (viewers : List Viewer)
    (actions : List Action) : Slotted (run step (fillLoot gold rolls viewers) actions) := by
  refine run_invariant_always (fun _ a h => h.step a) ?_ actions
  unfold fillLoot
  rw [← run_eq_foldl]
  exact run_invariant_always (fun _ w h => h.view w) (slotted_generate gold rolls) viewers

/-! ## Rows -/

variable {v : LootView} {row : Row}

/-- A slot shows the entry that it gives. -/
structure Shows (v : LootView) (loot : Loot) (slot : ℕ) (row : Row) : Prop where
  /-- The slot is written. -/
  written : row.slot=UInt8.ofNat slot
  /-- It is one of the viewer's slots. -/
  below : slot < loot.maxSlotFor v.viewer
  given : ∃ pick∈loot.lootItemInSlot slot v.viewer,pick.place=row.place
  entry : ∃ item∈loot.get row.place,item.itemid=row.itemid ∧ item.count=row.count

theorem lt_of_get_item {i : ℕ} {item : LootItem} (h : loot.get (.item i)=some item) :
    i < loot.items.length := (List.getElem?_eq_some_iff.mp h).1

theorem plainRow_place {i : ℕ} (h : v.plainRow loot i=some row) :
    row.place=.item i ∧ loot.flagsAt (.item i)=some (false,false) := by
  unfold LootView.plainRow at h
  split at h
  · cases h
  rename_i item hitem
  split_ifs at h with hshown
  simp only [Bool.and_eq_true,Bool.not_eq_true'] at hshown
  obtain ⟨type,_,rfl⟩ := Option.map_eq_some_iff.mp h
  refine ⟨rfl,?_⟩
  unfold Loot.flagsAt
  rw [hitem,Option.map_some,LootItem.flags,hshown.1.1.2,hshown.1.2]

theorem shows_plainRow {i : ℕ} (h : v.plainRow loot i=some row) : Shows v loot i row := by
  unfold LootView.plainRow at h
  split at h
  · cases h
  rename_i item hitem
  split_ifs at h with hshown
  simp only [Bool.and_eq_true,Bool.not_eq_true'] at hshown
  obtain ⟨type,_,rfl⟩ := Option.map_eq_some_iff.mp h
  have hlt := lt_of_get_item hitem
  refine ⟨rfl,by unfold Loot.maxSlotFor; omega,⟨⟨.item i,i,none⟩,?_,rfl⟩,item,hitem,rfl,rfl⟩
  have hget : loot.items[i]?=some item := hitem
  unfold Loot.lootItemInSlot
  rw [if_neg (by omega),hget]
  simp [hshown]

/-- The row of an own entry is about the entry of it, and neither is taken. -/
theorem ownRow_spec {kind : Kind} {q : QuestItem} (h : v.ownRow loot kind slot q=some row) :
    row.slot=UInt8.ofNat slot ∧ row.place=kind.place q.index ∧ q.is_looted=false ∧
      ∃ item∈loot.get row.place,item.itemid=row.itemid ∧ item.count=row.count := by
  unfold LootView.ownRow at h
  split at h
  · cases h
  rename_i item hitem
  split_ifs at h with hshown <;>
  · simp only [Bool.and_eq_true,Bool.not_eq_true'] at hshown
    cases h
    exact ⟨rfl,rfl,hshown.1,item,hitem,rfl,rfl⟩

theorem shows_questRow {j : ℕ} {q : QuestItem} (hq : (loot.listOf .quest v.viewer)[j]?=some q)
    (h : v.ownRow loot .quest (loot.items.length+j) q=some row) :
    Shows v loot (loot.items.length+j) row := by
  obtain ⟨hslot,hplace,hfree,hentry⟩ := ownRow_spec h
  have hlt := (List.getElem?_eq_some_iff.mp hq).1
  refine ⟨hslot,by unfold Loot.maxSlotFor; omega,⟨⟨.quest q.index,q.index,some .quest⟩,?_,?_⟩,hentry⟩
  · unfold Loot.lootItemInSlot
    rw [if_pos (Nat.le_add_right ..),Nat.add_sub_cancel_left,hq]
    simp [hfree]
  · rw [hplace]
    rfl

theorem Slotted.shows_indexRow (h : Slotted loot) {kind : Kind} (hkind : kind≠.quest)
    {q : QuestItem} (hq : q∈loot.listOf kind v.viewer)
    (hrow : v.ownRow loot kind q.index q=some row) : Shows v loot q.index row := by
  obtain ⟨hslot,hplace,hfree,hentry⟩ := ownRow_spec hrow
  obtain ⟨hmem,hviewer⟩ := List.mem_filter.mp hq
  obtain ⟨flags,hflags,hfits⟩ := h.fits kind q hmem
  have hown := h.keys.own_of_mem hmem
  rw [of_decide_eq_true hviewer] at hown
  have hitemPlace : kind.place q.index=.item q.index := by
    cases kind with
    | quest => exact absurd rfl hkind
    | ffa => rfl
    | conditional => rfl
  rw [hitemPlace] at hflags hplace
  obtain ⟨item,hitem,rfl⟩ := Option.map_eq_some_iff.mp hflags
  have hlt := lt_of_get_item hitem
  have hget : loot.items[q.index]?=some item := hitem
  refine ⟨hslot,by unfold Loot.maxSlotFor; omega,⟨⟨.item q.index,q.index,some kind⟩,?_,hplace.symm⟩,
    hentry⟩
  unfold Loot.lootItemInSlot Loot.pickOwn
  rw [if_neg (by omega),hget]
  cases kind with
  | quest => exact absurd rfl hkind
  | ffa =>
    have hffa : item.freeforall=true := hfits
    simp [hffa,hown,hfree]
  | conditional =>
    obtain ⟨hffa,hconditional⟩ := Prod.mk.inj hfits
    simp [hffa,hconditional,hown,hfree]

theorem Slotted.shows (h : Slotted loot) (hrow : row∈v.rows loot) : ∃ slot,Shows v loot slot row := by
  unfold LootView.rows at hrow
  simp only [List.mem_append] at hrow
  rcases hrow with ((hplain | hquest) | hffa) | hconditional
  · obtain ⟨i,_,hi⟩ := List.mem_filterMap.mp hplain
    exact ⟨i,shows_plainRow hi⟩
  · obtain ⟨⟨q,j⟩,hq,hrow⟩ := List.mem_filterMap.mp hquest
    exact ⟨_,shows_questRow (List.mem_zipIdx_iff_getElem?.mp hq) hrow⟩
  · obtain ⟨q,hq,hrow⟩ := List.mem_filterMap.mp hffa
    exact ⟨_,h.shows_indexRow (by simp) hq hrow⟩
  · obtain ⟨q,hq,hrow⟩ := List.mem_filterMap.mp hconditional
    exact ⟨_,h.shows_indexRow (by simp) hq hrow⟩

/-- What is written of the elements that are shown comes from all of them, in their order. -/
theorem map_filterMap_sublist {α β γ : Type*} {f : α → Option β} {g : β → γ} {k : α → γ}
    (hf : ∀ x y,f x=some y → g y=k x) (l : List α) :
    ((l.filterMap f).map g).Sublist (l.map k) := by
  induction l with
  | nil => exact List.Sublist.refl []
  | cons x l ih =>
    rw [List.filterMap_cons,List.map_cons]
    cases hx : f x with
    | none => exact ih.cons _
    | some y =>
      rw [List.map_cons,hf x y hx]
      exact ih.cons_cons _

theorem nodup_plainPlaces (v : LootView) (loot : Loot) :
    ((v.plainRows loot).map Row.place).Nodup := by
  have hsub := map_filterMap_sublist (f := fun i => v.plainRow loot i) (g := Row.place)
    (k := Place.item) (fun _ _ h => (plainRow_place h).1) (List.range loot.items.length)
  refine List.Nodup.sublist hsub (List.Nodup.map ?_ List.nodup_range)
  exact fun _ _ h => Place.item.inj h

/-- The places of the own entries are those of the player's list. -/
theorem places_questRows (v : LootView) (loot : Loot) :
    ((v.questRows loot).map Row.place).Sublist
      ((loot.indicesOf .quest v.viewer).map Place.quest) := by
  have hsub := map_filterMap_sublist
    (f := fun x : QuestItem×ℕ => v.ownRow loot .quest (loot.items.length+x.2) x.1)
    (g := Row.place) (k := fun x => Place.quest x.1.index)
    (fun _ _ h => (ownRow_spec h).2.1) (loot.listOf .quest v.viewer).zipIdx
  unfold Loot.indicesOf
  rw [List.map_map]
  have hfst := List.zipIdx_map_fst 0 (loot.listOf .quest v.viewer)
  rw [← hfst,List.map_map]
  exact hsub

theorem places_indexRows (v : LootView) (loot : Loot) (kind : Kind) :
    ((v.indexRows loot kind).map Row.place).Sublist
      ((loot.indicesOf kind v.viewer).map kind.place) := by
  have hsub := map_filterMap_sublist (f := fun q => v.ownRow loot kind q.index q)
    (g := Row.place) (k := fun q => kind.place q.index)
    (fun _ _ h => (ownRow_spec h).2.1) (loot.listOf kind v.viewer)
  unfold Loot.indicesOf
  rw [List.map_map]
  exact hsub

theorem Slotted.nodup_indices (h : Slotted loot) (kind : Kind) (player : ℕ) :
    (loot.indicesOf kind player).Nodup := by
  rw [indicesOf_eq]
  refine List.Nodup.map_on ?_ ((h.keys kind).filter _)
  intro x hx y hy heq
  have hx' := of_decide_eq_true (List.mem_filter.mp hx).2
  have hy' := of_decide_eq_true (List.mem_filter.mp hy).2
  exact Prod.ext (hx'.trans hy'.symm) heq

/-- An entry is shown once. -/
theorem Slotted.nodup_places (h : Slotted loot) (v : LootView) :
    ((v.rows loot).map Row.place).Nodup := by
  have hinj : ∀ kind : Kind,Function.Injective kind.place := by
    intro kind i j hij
    cases kind <;> simpa [Kind.place] using hij
  have hown : ∀ kind,((loot.indicesOf kind v.viewer).map kind.place).Nodup := fun kind =>
    (h.nodup_indices kind v.viewer).map (hinj kind)
  -- the flags of an entry of a list tell the lists apart
  have hflags : ∀ kind,∀ place∈(v.indexRows loot kind).map Row.place,
      ∃ flags∈loot.flagsAt place,kind.Fits flags := by
    intro kind place hplace
    obtain ⟨i,hi,rfl⟩ := List.mem_map.mp ((places_indexRows v loot kind).subset hplace)
    obtain ⟨q,hq,rfl⟩ := List.mem_map.mp hi
    exact h.fits kind q (List.mem_of_mem_filter hq)
  have hplain : ∀ place∈(v.plainRows loot).map Row.place,
      loot.flagsAt place=some (false,false) ∧ ∃ i,place=.item i := by
    intro place hplace
    obtain ⟨row,hrow,rfl⟩ := List.mem_map.mp hplace
    obtain ⟨i,_,hi⟩ := List.mem_filterMap.mp hrow
    obtain ⟨hplace,hflags⟩ := plainRow_place hi
    rw [hplace]
    exact ⟨hflags,i,rfl⟩
  have hitem : ∀ kind≠Kind.quest,∀ place∈(v.indexRows loot kind).map Row.place,
      ∃ i,place=.item i := by
    intro kind hkind place hplace
    obtain ⟨i,_,rfl⟩ := List.mem_map.mp ((places_indexRows v loot kind).subset hplace)
    cases kind with
    | quest => exact absurd rfl hkind
    | ffa => exact ⟨i,rfl⟩
    | conditional => exact ⟨i,rfl⟩
  have hquest : ∀ place∈(v.questRows loot).map Row.place,∃ i,place=.quest i := by
    intro place hplace
    obtain ⟨i,_,rfl⟩ := List.mem_map.mp ((places_questRows v loot).subset hplace)
    exact ⟨i,rfl⟩
  unfold LootView.rows
  rw [List.map_append,List.map_append,List.map_append]
  refine List.Nodup.append (List.Nodup.append (List.Nodup.append (nodup_plainPlaces v loot)
    ((hown .quest).sublist (places_questRows v loot)) ?_)
    ((hown .ffa).sublist (places_indexRows v loot .ffa)) ?_)
    ((hown .conditional).sublist (places_indexRows v loot .conditional)) ?_
  · intro place hleft hright
    obtain ⟨i,hi⟩ := (hplain place hleft).2
    obtain ⟨j,hj⟩ := hquest place hright
    cases hi.symm.trans hj
  · intro place hleft hright
    obtain ⟨flags,hflag,hfits⟩ := hflags .ffa place hright
    obtain ⟨j,hj⟩ := hitem .ffa (by simp) place hright
    rcases List.mem_append.mp hleft with hleft | hleft
    · rw [(hplain place hleft).1] at hflag
      cases hflag
      cases hfits
    · obtain ⟨i,hi⟩ := hquest place hleft
      cases hi.symm.trans hj
  · intro place hleft hright
    obtain ⟨flags,hflag,hfits⟩ := hflags .conditional place hright
    obtain ⟨j,hj⟩ := hitem .conditional (by simp) place hright
    rcases List.mem_append.mp hleft with hleft | hleft
    · rcases List.mem_append.mp hleft with hleft | hleft
      · rw [(hplain place hleft).1] at hflag
        cases hflag
        cases hfits
      · obtain ⟨i,hi⟩ := hquest place hleft
        cases hi.symm.trans hj
    · obtain ⟨flags',hflag',hfits'⟩ := hflags .ffa place hleft
      obtain rfl := Option.some.inj (hflag.symm.trans hflag')
      rw [show flags=(false,true) from hfits] at hfits'
      cases hfits'

/-! ## The slots agree -/

theorem Slotted.maxSlotFor_le (h : Slotted loot) (player : ℕ) : loot.maxSlotFor player ≤ 16 := by
  have hroom := h.room player
  have hitems := h.items
  unfold Loot.indicesOf at hroom
  rw [List.length_map] at hroom
  unfold MAX_NR_LOOT_ITEMS at hroom hitems
  unfold Loot.maxSlotFor
  omega

/-- There are no more rows than entries. -/
theorem Slotted.length_rows (h : Slotted loot) (v : LootView) : (v.rows loot).length < 256 := by
  have hsub : (v.rows loot).map Row.place ⊆ loot.places := by
    intro place hplace
    obtain ⟨row,hrow,rfl⟩ := List.mem_map.mp hplace
    obtain ⟨slot,hshows⟩ := h.shows hrow
    obtain ⟨item,hitem,_⟩ := hshows.entry
    exact mem_places hitem
  have hle := ((h.nodup_places v).subperm hsub).length_le
  have hitems := h.items
  have hquest := h.quest_items
  unfold Loot.places at hle
  unfold MAX_NR_LOOT_ITEMS at hitems
  unfold MAX_NR_QUEST_ITEMS at hquest
  simp only [List.length_map,List.length_append,List.length_range] at hle
  omega

theorem Slotted.quest_lt (h : Slotted loot) {i : ℕ} (hi : i∈loot.indicesOf .quest player) :
    i < loot.quest_items.length := by
  obtain ⟨q,hq,rfl⟩ := List.mem_map.mp hi
  obtain ⟨flags,hflags,_⟩ := h.fits .quest q (List.mem_of_mem_filter hq)
  obtain ⟨item,hitem,_⟩ := Option.map_eq_some_iff.mp hflags
  exact (List.getElem?_eq_some_iff.mp (show loot.quest_items[q.index]?=some item from hitem)).1

/-- What the slots of a window mean, but for the slot that the currency loop examines. -/
theorem Slotted.agree (h : Slotted loot) (v : LootView) :
    SlotsAgree v loot ↔ ∀ slot < loot.maxSlotFor v.viewer,
      loot.requested v.viewer slot=some (loot.placeOf slot) := by
  refine ⟨fun hagree => hagree.examined,fun hexamined => ?_⟩
  have hslot : ∀ row∈v.rows loot,∃ slot,Shows v loot slot row ∧ row.slot.toNat=slot := by
    intro row hrow
    obtain ⟨slot,hshows⟩ := h.shows hrow
    have hbelow := hshows.below
    have hmax := h.maxSlotFor_le v.viewer
    refine ⟨slot,hshows,?_⟩
    rw [hshows.written]
    exact UInt8.toNat_ofNat_of_lt' (by rw [UInt8.size]; omega)
  have hrows : ∀ row∈(v.write loot).rows,row∈v.rows loot := by
    intro row hrow
    unfold LootView.write at hrow
    split at hrow
    · cases hrow
    · exact hrow
  constructor
  · -- equal slots give one entry, and no entry is shown twice
    have hplaces := h.nodup_places v
    have hnodup : ((v.rows loot).map Row.slot).Nodup := by
      refine List.Nodup.map_on ?_ hplaces.of_map
      intro x hx y hy heq
      obtain ⟨slot,hshows,hx'⟩ := hslot x hx
      obtain ⟨slot',hshows',hy'⟩ := hslot y hy
      obtain ⟨pick,hpick,hplace⟩ := hshows.given
      obtain ⟨pick',hpick',hplace'⟩ := hshows'.given
      have hsame : slot=slot' := by rw [← hx',← hy',heq]
      rw [hsame] at hpick
      have hpicks := Option.some.inj (hpick.symm.trans hpick')
      refine List.inj_on_of_nodup_map hplaces hx hy ?_
      rw [← hplace,← hplace',hpicks]
    unfold LootView.write
    split
    · exact List.nodup_nil
    · exact hnodup
  · unfold LootView.write
    split
    · rfl
    · exact UInt8.toNat_ofNat_of_lt' (h.length_rows v)
  · intro row hrow
    obtain ⟨slot,hshows,heq⟩ := hslot row (hrows row hrow)
    rw [heq]
    exact ⟨hshows.below,hshows.given,hshows.entry⟩
  · intro slot hlt
    have hlength := length_le (h.sorted v.viewer) (n := loot.quest_items.length)
      fun i hi => h.quest_lt hi
    unfold Loot.indicesOf at hlength
    rw [List.length_map] at hlength
    unfold Loot.maxSlotFor at hlt
    unfold Loot.placeOf
    split
    · have hin : slot-loot.items.length < loot.quest_items.length := by omega
      simp [Loot.get,hin]
    · have hin : slot < loot.items.length := by omega
      simp [Loot.get,hin]
  · exact hexamined

/-- The currency loop examines the right entries exactly where nothing was left out of the quest
list. -/
theorem Slotted.examined_iff (h : Slotted loot) (player : ℕ) :
    (∀ slot < loot.maxSlotFor player,loot.requested player slot=some (loot.placeOf slot)) ↔
      Initial (loot.indicesOf .quest player) := by
  rw [initial_iff (h.sorted player)]
  have hget : ∀ j (hj : j < (loot.indicesOf .quest player).length),
      loot.requested player (loot.items.length+j)=
        some (.quest (loot.indicesOf .quest player)[j]) := by
    intro j hj
    unfold Loot.indicesOf at hj ⊢
    rw [List.length_map] at hj
    unfold Loot.requested
    rw [if_pos (Nat.le_add_right ..),Nat.add_sub_cancel_left,List.getElem?_eq_getElem hj,
      List.getElem_map]
    rfl
  constructor
  · intro hexamined j hj
    have hlt : loot.items.length+j < loot.maxSlotFor player := by
      unfold Loot.indicesOf at hj
      rw [List.length_map] at hj
      unfold Loot.maxSlotFor
      omega
    have hslot := hexamined _ hlt
    rw [hget j hj] at hslot
    unfold Loot.placeOf at hslot
    rw [if_pos (Nat.le_add_right ..),Nat.add_sub_cancel_left] at hslot
    simpa using hslot
  · intro hself slot hlt
    by_cases hslot : slot ≥ loot.items.length
    · have hj : slot-loot.items.length < (loot.indicesOf .quest player).length := by
        unfold Loot.maxSlotFor at hlt
        unfold Loot.indicesOf
        rw [List.length_map]
        omega
      have hslot' := hget _ hj
      rw [hself _ hj,Nat.add_sub_cancel' hslot] at hslot'
      rw [hslot']
      unfold Loot.placeOf
      rw [if_pos hslot]
    · unfold Loot.requested Loot.placeOf
      rw [if_neg hslot,if_neg hslot]

/-- In every loot that is reached by filling and looting, for every player under every permission,
the slots mean one thing wherever they are read exactly when every quest entry before a listed one
is in the player's list as well. -/
theorem slots_agree_iff (gold : ℕ) (rolls : List Rolled) (viewers : List Viewer)
    (actions : List Action) (v : LootView) :
    SlotsAgree v (run step (fillLoot gold rolls viewers) actions) ↔
      Initial ((run step (fillLoot gold rolls viewers) actions).indicesOf .quest v.viewer) := by
  have h := slotted_run gold rolls viewers actions
  exact (h.agree v).trans (h.examined_iff v.viewer)

/-- Two quest entries, the second one a currency that is free for all. -/
def questRolls : List Rolled :=
  [⟨some ⟨20,false,false⟩,⟨1,1,true,false⟩,1,fun _ => some 1⟩,
    ⟨some ⟨20,true,false⟩,⟨2,5,true,false⟩,3,fun _ => some 2⟩]

/-- A player that may have the second entry only, and is to get it at once. -/
def currencyViewer : Viewer :=
  ⟨1,fun item => item.itemid=2,none,false,true,fun item => item.itemid=2,fun _ => true⟩

/-- The view of this player. -/
def currencyView : LootView := ⟨1,.owner,fun item => item.itemid=2,none,0,fun _ => false⟩

/-- The currency in the player's first slot is not handed out: the first quest entry is examined in
its place. -/
theorem slots_disagree : ¬SlotsAgree currencyView (fillLoot 0 questRolls [currencyViewer]) := by
  intro h
  have hzero := h.examined 0 (by decide)
  revert hzero
  decide

end Projectnelth.LootModel
