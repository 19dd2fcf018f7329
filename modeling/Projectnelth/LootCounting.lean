import Mathlib
import Projectnelth.LootRuns

/-!
# The loot counter

The units that are still obtainable are the entries without a mark that are not free for all
and that somebody may take, and the unmarked own entries for free-for-all ones. Each hand-out
of such a unit takes one of them and one from the counter, and each listing adds as many units
as it counts.
-/

namespace Projectnelth.LootModel

open KeyedList RunInvariant

/-- The entry stands in the list of some player. -/
def Loot.listed (loot : Loot) (kind : Kind) (index : ℕ) : Bool :=
  (loot.lists kind).any (·.index=index)

/-- The list that an entry must stand in to be taken when it is not free for all. -/
def Place.listKind : Place → Kind
  | .item _ => .conditional
  | .quest _ => .quest

/-- A plain entry is there for everybody, the others for whom they are listed. -/
def needsList (place : Place) (item : LootItem) : Bool :=
  match place with
  | .item _ => item.conditional
  | .quest _ => true

/-- An entry that is not free for all and that somebody can still take. -/
def Loot.isShared (loot : Loot) (place : Place) : Bool :=
  (loot.get place).any fun item => !item.freeforall && !item.is_looted &&
    (!needsList place item || loot.listed place.listKind place.index)

/-- All places of a loot. -/
def Loot.places (loot : Loot) : List Place :=
  (List.range loot.items.length).map .item++(List.range loot.quest_items.length).map .quest

/-- Whether the entry at a place is free for all. -/
def Loot.isFfa (loot : Loot) (place : Place) : Bool := (loot.get place).any (·.freeforall)

/-- The own entries for free-for-all entries that are not taken yet. -/
def Loot.ownOpen (loot : Loot) (kind : Kind) : ℕ :=
  (loot.lists kind).countP fun q => !q.is_looted && loot.isFfa (kind.place q.index)

/-- The units that are still obtainable. -/
def Loot.units (loot : Loot) : ℕ :=
  loot.places.countP loot.isShared+(loot.ownOpen .ffa+loot.ownOpen .quest)

variable {loot loot' : Loot} {player slot index : ℕ} {place : Place} {w : Viewer}

theorem nodup_places (loot : Loot) : loot.places.Nodup := by
  refine List.Nodup.append (List.nodup_range.map fun _ _ => Place.item.inj)
    (List.nodup_range.map fun _ _ => Place.quest.inj) fun p hp hq => ?_
  obtain ⟨_,_,rfl⟩ := List.mem_map.mp hp
  obtain ⟨_,_,heq⟩ := List.mem_map.mp hq
  cases heq

theorem mem_places {item : LootItem} (h : loot.get place=some item) : place∈loot.places := by
  cases place with
  | item i =>
    exact List.mem_append_left _ (List.mem_map_of_mem
      (List.mem_range.mpr (List.getElem?_eq_some_iff.mp h).1))
  | quest i =>
    exact List.mem_append_right _ (List.mem_map_of_mem
      (List.mem_range.mpr (List.getElem?_eq_some_iff.mp h).1))

/-- What decides the units: the lengths, the entries and the lists. -/
structure SameUnits (loot loot' : Loot) : Prop where
  /-- As many entries. -/
  items : loot'.items.length=loot.items.length
  /-- As many quest entries. -/
  quest_items : loot'.quest_items.length=loot.quest_items.length
  /-- The entries are free for all as before. -/
  ffa : ∀ place,loot'.isFfa place=loot.isFfa place

theorem SameUnits.places (h : SameUnits loot loot') : loot'.places=loot.places := by
  unfold Loot.places
  rw [h.items,h.quest_items]

theorem SameUnits.trans {loot'' : Loot} (h : SameUnits loot loot') (h' : SameUnits loot' loot'') :
    SameUnits loot loot'' :=
  ⟨h'.items.trans h.items,h'.quest_items.trans h.quest_items,fun place =>
    (h'.ffa place).trans (h.ffa place)⟩

theorem isFfa_modify {f : LootItem → LootItem} (hf : ∀ item,(f item).freeforall=item.freeforall)
    (loot : Loot) (place other : Place) :
    (loot.modify f place).isFfa other=loot.isFfa other := by
  unfold Loot.isFfa
  rw [get_modify]
  split
  · rw [Option.any_map]
    exact congrArg (fun p => (loot.get other).any p) (funext hf)
  · rfl

theorem sameUnits_modify {f : LootItem → LootItem}
    (hf : ∀ item,(f item).freeforall=item.freeforall) (loot : Loot) (place : Place) :
    SameUnits loot (loot.modify f place) :=
  ⟨length_items_modify f,length_quest_items_modify f,isFfa_modify hf loot place⟩

theorem sameUnits_of_eq (hitems : loot'.items=loot.items)
    (hquest : loot'.quest_items=loot.quest_items) : SameUnits loot loot' := by
  refine ⟨congrArg _ hitems,congrArg _ hquest,fun place => ?_⟩
  unfold Loot.isFfa
  cases place with
  | item i => exact congrArg (fun l : List LootItem => (l[i]?).any (·.freeforall)) hitems
  | quest i => exact congrArg (fun l : List LootItem => (l[i]?).any (·.freeforall)) hquest

theorem listed_markOwn (own : Option Kind) (kind : Kind) (index' : ℕ) :
    (loot.markOwn player index own).listed kind index'=loot.listed kind index' := by
  cases own with
  | none => rfl
  | some marked =>
    unfold Loot.listed
    rw [lists_markOwn]
    split
    · have hmap : ∀ l : List QuestItem,l.any (·.index=index')=
          (l.map QuestItem.key).any (·.2=index') := fun l => by rw [List.any_map]; rfl
      rw [hmap,hmap,map_key_replace]
    · rfl

theorem listed_congr (h : loot'.lists=loot.lists) (kind : Kind) (index : ℕ) :
    loot'.listed kind index=loot.listed kind index := by
  unfold Loot.listed
  rw [h]

/-- An entry that is marked for everybody is one unit less. -/
theorem shared_taken (hsame : SameUnits loot loot') (hshared : loot.isShared place=true)
    (hget : ∀ other,place≠other → loot'.get other=loot.get other)
    (hmark : ∀ item,loot'.get place=some item → item.is_looted=true)
    (hlisted : ∀ kind index,loot'.listed kind index=loot.listed kind index) :
    loot.places.countP loot.isShared=loot'.places.countP loot'.isShared+1 := by
  rw [hsame.places]
  obtain ⟨item,hitem,_⟩ := Option.any_eq_true _ _ |>.mp hshared
  refine countP_add_one (nodup_places loot) (mem_places hitem) ?_ hshared fun other hne => ?_
  · unfold Loot.isShared
    cases hitem' : loot'.get place with
    | none => rfl
    | some item' =>
      rw [Option.any_some,hmark item' hitem']
      simp
  · unfold Loot.isShared
    rw [hget other (Ne.symm hne),hlisted]

/-- The lists of the free-for-all entries decide the own units. -/
theorem ownOpen_congr (hsame : SameUnits loot loot') {kind : Kind}
    (h : loot'.lists kind=loot.lists kind) : loot'.ownOpen kind=loot.ownOpen kind := by
  unfold Loot.ownOpen
  rw [h]
  exact List.countP_congr fun q _ => by rw [hsame.ffa]

/-! ## Hand-outs -/

/-- What `StoreLootItem` stores is one of the units. -/
def Loot.StoreCounts (loot : Loot) (player slot : ℕ) (allowed : LootItem → Bool)
    (canStore : Bool) : Prop :=
  ∀ x∈loot.storable player slot allowed canStore,
    (x.2.freeforall=true → x.1.own.isSome=true) ∧
      (x.2.freeforall=false → loot.isShared x.1.place=true)

instance (loot : Loot) (player slot : ℕ) (allowed : LootItem → Bool) (canStore : Bool) :
    Decidable (loot.StoreCounts player slot allowed canStore) := by
  unfold Loot.StoreCounts
  infer_instance

/-- An own entry that is marked is one unit less where its entry is free for all. -/
theorem ownOpen_markOwn (hkeys : Keys loot) (kind : Kind) {q : QuestItem}
    (hq : loot.own kind player index=some q) (hfree : q.is_looted=false) :
    loot.ownOpen kind=(loot.markOwn player index (some kind)).ownOpen kind+
      (loot.isFfa (kind.place index)).toNat := by
  have hindex : q.index=index := (mem_of_own hq).2.2
  have hffa : ∀ place,(loot.markOwn player index (some kind)).isFfa place=loot.isFfa place :=
    (sameUnits_of_eq (items_markOwn _) (quest_items_markOwn _)).ffa
  have hlookup : lookup QuestItem.key (QuestItem.key ⟨player,index,true⟩) (loot.lists kind)=
      some q := hq
  have hcount := countP_replace (fun q : QuestItem => !q.is_looted && loot.isFfa
    (kind.place q.index)) (hkeys kind) hlookup
  unfold Loot.ownOpen
  rw [lists_markOwn,if_pos rfl]
  simp only [hffa]
  simp only [hfree,hindex,Bool.not_false,Bool.true_and,Bool.not_true,Bool.false_and,
    Bool.toNat_false,Nat.add_zero] at hcount
  exact hcount.symm

theorem ownOpen_picked (hkeys : Keys loot) {pick : Pick} (hpicked : Picked loot player pick)
    (hsame : SameUnits loot loot')
    (hlists : loot'.lists=(loot.markOwn player pick.index pick.own).lists) (kind : Kind) :
    loot.ownOpen kind=
      loot'.ownOpen kind+if pick.own=some kind then (loot.isFfa pick.place).toNat else 0 := by
  have hmarked : SameUnits (loot.markOwn player pick.index pick.own) loot' := by
    refine ⟨hsame.items.trans ?_,hsame.quest_items.trans ?_,fun place => (hsame.ffa place).trans ?_⟩
    · rw [items_markOwn]
    · rw [quest_items_markOwn]
    · exact ((sameUnits_of_eq (items_markOwn _) (quest_items_markOwn _)).ffa place).symm
  rw [ownOpen_congr hmarked (congrFun hlists kind)]
  split
  · rename_i hown
    obtain ⟨hplace,q,hq,hfree⟩ := hpicked.own kind hown
    rw [hown,hplace]
    exact ownOpen_markOwn hkeys kind hq hfree
  · rename_i hown
    refine (ownOpen_congr (sameUnits_of_eq (items_markOwn _) (quest_items_markOwn _)) ?_).symm
    cases hpick : pick.own with
    | none => rfl
    | some marked =>
      rw [lists_markOwn,if_neg fun heq => hown (hpick.trans (congrArg some heq.symm))]

theorem sameUnits_store {allowed : LootItem → Bool} {canStore : Bool}
    {x : Pick×LootItem} (hstorable : loot.storable player slot allowed canStore=some x) :
    SameUnits loot (loot.storeLootItem player slot allowed canStore) := by
  unfold Loot.storeLootItem
  rw [hstorable]
  have hgive : SameUnits loot (loot.give x.1.place player x.2.count) := sameUnits_of_eq rfl rfl
  have hmark : SameUnits (loot.give x.1.place player x.2.count)
      ((loot.give x.1.place player x.2.count).markOwn player x.1.index x.1.own) :=
    sameUnits_of_eq (items_markOwn x.1.own) (quest_items_markOwn x.1.own)
  exact ((hgive.trans hmark).trans (sameUnits_modify (fun item => (comesFrom_markShared item).1) _
    _)).trans (sameUnits_of_eq rfl rfl)

theorem units_storeLootItem (hkeys : Keys loot) {allowed : LootItem → Bool} {canStore : Bool}
    (hcounts : loot.StoreCounts player slot allowed canStore)
    {x : Pick×LootItem} (hstorable : loot.storable player slot allowed canStore=some x) :
    loot.units=(loot.storeLootItem player slot allowed canStore).units+1 := by
  have hsame := sameUnits_store hstorable
  obtain ⟨pick,item⟩ := x
  obtain ⟨hpicked,hitem⟩ := picked_storable hkeys hstorable
  obtain ⟨hffa,hshared⟩ := hcounts (pick,item) hstorable
  have hlists := own_storeLootItem hstorable
  have hget := get_storeLootItem hstorable
  have hlisted : ∀ kind index,(loot.storeLootItem player slot allowed canStore).listed kind index=
      loot.listed kind index := fun kind index =>
    (listed_congr hlists kind index).trans (listed_markOwn ..)
  have hown := ownOpen_picked hkeys hpicked hsame hlists
  have hisFfa : loot.isFfa pick.place=item.freeforall := by
    unfold Loot.isFfa
    rw [hitem,Option.any_some]
  unfold Loot.units
  rw [hown .ffa,hown .quest,hisFfa]
  cases hfree : item.freeforall with
  | false =>
    have hno : pick.own≠some .ffa := hpicked.shared item hitem hfree
    have htaken := shared_taken hsame (hshared hfree)
      (fun other hne => (hget other).trans (if_neg hne)) (fun item' hitem' => by
        rw [hget,if_pos rfl,hitem,Option.map_some] at hitem'
        rw [← Option.some.inj hitem',markShared,if_neg (by rw [hfree]; exact Bool.false_ne_true)])
      hlisted
    rw [htaken,if_neg hno,Bool.toNat_false,ite_self]
    omega
  | true =>
    obtain ⟨kind,hkind⟩ := Option.isSome_iff_exists.mp (hffa hfree)
    have hget' : ∀ other,(loot.storeLootItem player slot allowed canStore).get other=
        loot.get other := fun other => by
      rw [hget]
      split
      · rename_i heq
        rw [← heq,hitem,Option.map_some,markShared,if_pos hfree]
      · rfl
    have hplaces : loot.places.countP loot.isShared=
        (loot.storeLootItem player slot allowed canStore).places.countP
          (loot.storeLootItem player slot allowed canStore).isShared := by
      rw [hsame.places]
      refine List.countP_congr fun other _ => ?_
      unfold Loot.isShared
      rw [hget',hlisted]
    rw [hplaces,hkind]
    have hffaKind := hpicked.ffa kind item hkind hitem hfree
    cases hplace : pick.place with
    | item i =>
      rw [hplace] at hffaKind
      rw [show kind=Kind.ffa from hffaKind,if_pos rfl,if_neg (by decide),Bool.toNat_true]
      omega
    | quest i =>
      rw [hplace] at hffaKind
      rw [show kind=Kind.quest from hffaKind,if_neg (by decide),if_pos rfl,Bool.toNat_true]
      omega

/-- An entry that is handed to somebody and marked for everybody is one unit less. -/
theorem units_hand {f : LootItem → LootItem} (hshared : loot.isShared place=true)
    (hf : ∀ item,(f item).is_looted=true ∧ (f item).freeforall=item.freeforall)
    (hitems : loot'.items=(loot.modify f place).items)
    (hquest : loot'.quest_items=(loot.modify f place).quest_items)
    (hlists : loot'.lists=loot.lists) : loot.units=loot'.units+1 := by
  have hget : ∀ other,loot'.get other=(loot.modify f place).get other := fun other => by
    cases other with
    | item i => exact congrArg (fun l : List LootItem => l[i]?) hitems
    | quest i => exact congrArg (fun l : List LootItem => l[i]?) hquest
  have hsame : SameUnits loot loot' :=
    (sameUnits_modify (fun item => (hf item).2) loot place).trans (sameUnits_of_eq hitems hquest)
  have htaken := shared_taken hsame hshared
    (fun other hne => (hget other).trans (get_modify_of_ne hne)) (fun item' hitem' => by
      rw [hget,get_modify,if_pos rfl] at hitem'
      obtain ⟨item,_,rfl⟩ := Option.map_eq_some_iff.mp hitem'
      exact (hf item).1) (listed_congr hlists)
  unfold Loot.units
  rw [htaken,ownOpen_congr hsame (congrFun hlists .ffa),
    ownOpen_congr hsame (congrFun hlists .quest)]
  omega

end Projectnelth.LootModel
