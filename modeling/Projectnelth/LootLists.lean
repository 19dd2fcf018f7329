import Mathlib
import Projectnelth.LootModel

/-!
# The entries of a loot and those of its players

What each write does to the entry at a place and to the player's own entries, and what
`LootItemInSlot` finds.
-/

namespace Projectnelth.LootModel

open KeyedList

/-- The index of an entry. -/
def Place.index : Place → ℕ
  | .item i => i
  | .quest i => i

/-- The list that holds the players' own entries of a free-for-all entry. -/
def Place.ffaKind : Place → Kind
  | .item _ => .ffa
  | .quest _ => .quest

variable {loot : Loot} {player slot index : ℕ} {place : Place} {kind : Kind}

/-! ## Writes to entries -/

theorem get_modify (loot : Loot) (f : LootItem → LootItem) (place other : Place) :
    (loot.modify f place).get other=
      if place=other then (loot.get other).map f else loot.get other := by
  cases place with
  | item i =>
    cases other with
    | quest j => rfl
    | item j =>
      have hget : (loot.items.modify i f)[j]?=_ := List.getElem?_modify f i loot.items j
      refine hget.trans ?_
      by_cases hij : i=j
      · rw [if_pos (congrArg Place.item hij)]
        simp [hij,Loot.get]
      · rw [if_neg fun h => hij (Place.item.inj h)]
        simp [hij,Loot.get]
  | quest i =>
    cases other with
    | item j => rfl
    | quest j =>
      have hget : (loot.quest_items.modify i f)[j]?=_ := List.getElem?_modify f i loot.quest_items j
      refine hget.trans ?_
      by_cases hij : i=j
      · rw [if_pos (congrArg Place.quest hij)]
        simp [hij,Loot.get]
      · rw [if_neg fun h => hij (Place.quest.inj h)]
        simp [hij,Loot.get]

/-- A write that keeps an entry is none. -/
theorem get_modify_self {item : LootItem} {f : LootItem → LootItem} (h : loot.get place=some item) :
    (loot.modify f place).get place=some (f item) := by
  rw [get_modify,if_pos rfl,h,Option.map_some]

theorem get_modify_of_ne {f : LootItem → LootItem} {other : Place} (h : place≠other) :
    (loot.modify f place).get other=loot.get other := by
  rw [get_modify,if_neg h]

@[simp] theorem lists_modify (f : LootItem → LootItem) :
    (loot.modify f place).lists=loot.lists := by cases place <;> rfl

@[simp] theorem given_modify (f : LootItem → LootItem) :
    (loot.modify f place).given=loot.given := by cases place <;> rfl

@[simp] theorem unlootedCount_modify (f : LootItem → LootItem) :
    (loot.modify f place).unlootedCount=loot.unlootedCount := by cases place <;> rfl

@[simp] theorem length_items_modify (f : LootItem → LootItem) :
    (loot.modify f place).items.length=loot.items.length := by
  cases place
  · exact List.length_modify ..
  · rfl

@[simp] theorem length_quest_items_modify (f : LootItem → LootItem) :
    (loot.modify f place).quest_items.length=loot.quest_items.length := by
  cases place
  · rfl
  · exact List.length_modify ..

/-! ## Writes to own entries -/

/-- Marking the own entry of a player leaves the entries, what was given and the counter. -/
theorem get_markOwn (own : Option Kind) (other : Place) :
    (loot.markOwn player index own).get other=loot.get other := by
  cases own <;> cases other <;> rfl

@[simp] theorem given_markOwn (own : Option Kind) :
    (loot.markOwn player index own).given=loot.given := by cases own <;> rfl

@[simp] theorem unlootedCount_markOwn (own : Option Kind) :
    (loot.markOwn player index own).unlootedCount=loot.unlootedCount := by cases own <;> rfl

@[simp] theorem items_markOwn (own : Option Kind) :
    (loot.markOwn player index own).items=loot.items := by cases own <;> rfl

@[simp] theorem quest_items_markOwn (own : Option Kind) :
    (loot.markOwn player index own).quest_items=loot.quest_items := by cases own <;> rfl

theorem lists_markOwn (marked kind : Kind) :
    (loot.markOwn player index (some marked)).lists kind=
      if kind=marked then replace QuestItem.key ⟨player,index,true⟩ (loot.lists kind)
      else loot.lists kind := by
  by_cases hkind : kind=marked
  · subst hkind
    rw [if_pos rfl]
    exact Function.update_self ..
  · rw [if_neg hkind]
    exact Function.update_of_ne hkind ..

/-- A marked own entry is found in the place of the old one. -/
theorem own_markOwn (own : Option Kind) (kind : Kind) (player' index' : ℕ) :
    (loot.markOwn player index own).own kind player' index'=
      if own=some kind ∧ player'=player ∧ index'=index then
        (loot.own kind player' index').map fun _ => ⟨player,index,true⟩
      else loot.own kind player' index' := by
  cases own with
  | none => rw [if_neg fun h => by cases h.1]; rfl
  | some marked =>
    unfold Loot.own
    rw [lists_markOwn]
    by_cases hkind : kind=marked
    · subst hkind
      rw [if_pos rfl,lookup_replace]
      by_cases hkey : player'=player ∧ index'=index
      · obtain ⟨rfl,rfl⟩ := hkey
        exact (if_pos rfl).trans (if_pos ⟨rfl,rfl,rfl⟩).symm
      · refine (if_neg fun h => hkey ?_).trans (if_neg fun h => hkey h.2).symm
        exact ⟨(Prod.mk.inj h).1.symm,(Prod.mk.inj h).2.symm⟩
    · rw [if_neg hkind,if_neg fun h => hkind (Option.some.inj h.1).symm]

/-- No list holds an entry twice. -/
def Keys (loot : Loot) : Prop := ∀ kind,((loot.lists kind).map QuestItem.key).Nodup

theorem Keys.markOwn (h : Keys loot) (player index : ℕ) (own : Option Kind) :
    Keys (loot.markOwn player index own) := by
  cases own with
  | none => exact h
  | some marked =>
    intro kind
    rw [lists_markOwn]
    by_cases hkind : kind=marked
    · rw [if_pos hkind,map_key_replace]
      exact h kind
    · rw [if_neg hkind]
      exact h kind

theorem Keys.own_of_mem (h : Keys loot) {q : QuestItem} (hq : q∈loot.lists kind) :
    loot.own kind q.player q.index=some q :=
  lookup_of_mem (h kind) hq

/-- An own entry that is found is in the list, under its player and its index. -/
theorem mem_of_own {q : QuestItem} (h : loot.own kind player index=some q) :
    q∈loot.lists kind ∧ q.player=player ∧ q.index=index := by
  have hkey : q.key=(player,index) := key_of_lookup h
  obtain ⟨hplayer,hindex⟩ := Prod.mk.inj hkey
  exact ⟨mem_of_lookup h,hplayer,hindex⟩

/-! ## What is picked -/

/-- What holds of the pick of a player. -/
structure Picked (loot : Loot) (player : ℕ) (pick : Pick) : Prop where
  index : pick.index=pick.place.index
  /-- The player's own entry bears no mark. -/
  own : ∀ kind,pick.own=some kind → pick.place=kind.place pick.index ∧
    ∃ q,loot.own kind player pick.index=some q ∧ q.is_looted=false
  /-- For a free-for-all entry it is in the list of those. -/
  ffa : ∀ kind item,pick.own=some kind → loot.get pick.place=some item → item.freeforall=true →
    kind=pick.place.ffaKind
  /-- The list of the free-for-all entries is asked for these only. -/
  shared : ∀ item,loot.get pick.place=some item → item.freeforall=false → pick.own≠some .ffa
  /-- A quest entry is picked by the player's own entry. -/
  quest : ∀ i,pick.place=.quest i → pick.own=some .quest
  /-- Without a list the player has no own entry for a free-for-all entry. -/
  missing : pick.own=none → ∀ item,loot.get pick.place=some item → item.freeforall=true →
    loot.own .ffa player pick.index=none
  /-- Without an own entry the entry bears no mark. -/
  none : pick.own=none → ∀ item,loot.get pick.place=some item → item.is_looted=false

theorem picked_pickOwn (kind : Kind) {item : LootItem} {pick : Pick} (hitem : loot.get (.item slot)=some item)
    (hkind : kind.place=Place.item)
    (hffa : item.freeforall=true ↔ kind=.ffa)
    (h : loot.pickOwn kind item slot player=some pick) : Picked loot player pick := by
  unfold Loot.pickOwn at h
  have hget : ∀ other,loot.get (.item slot)=some other → other=item := fun other hother =>
    Option.some.inj (hother.symm.trans hitem)
  split at h
  · rename_i q hown
    split_ifs at h with hmark
    cases h
    have hfree : q.is_looted=false := Bool.eq_false_iff.mpr hmark
    refine ⟨rfl,fun other hother => ?_,fun other ffa hother hget' hffa' => ?_,
      fun other hother hfalse hown => ?_,(by rintro _ ⟨⟩),(by rintro ⟨⟩),(by rintro ⟨⟩)⟩
    · cases hother
      exact ⟨congrFun hkind.symm slot,q,hown,hfree⟩
    · cases hother
      exact hffa.mp (hget ffa hget' ▸ hffa')
    · rw [hget other hother,Bool.eq_false_iff] at hfalse
      exact hfalse (hffa.mpr (Option.some.inj hown))
  · rename_i hown
    split_ifs at h with hmark
    cases h
    refine ⟨rfl,(by rintro _ ⟨⟩),(by rintro _ _ ⟨⟩),(by rintro _ _ _ ⟨⟩),(by rintro _ ⟨⟩),fun _ other hother hffa' => ?_,fun _ other hother => ?_⟩
    · rw [hget other hother] at hffa'
      rw [← hffa.mp hffa']
      exact hown
    · rw [hget other hother]
      exact Bool.eq_false_iff.mpr hmark

/-- What `LootItemInSlot` finds. -/
theorem picked_lootItemInSlot (hkeys : Keys loot) {pick : Pick}
    (h : loot.lootItemInSlot slot player=some pick) : Picked loot player pick := by
  unfold Loot.lootItemInSlot at h
  split at h
  · split at h
    · rename_i q hslot
      split_ifs at h with hmark
      cases h
      obtain ⟨hq,hplayer⟩ := List.mem_filter.mp (List.mem_of_getElem? hslot)
      have hown := hkeys.own_of_mem hq
      rw [of_decide_eq_true hplayer] at hown
      refine ⟨rfl,fun kind hkind => ?_,fun kind _ hkind _ _ => ?_,(by rintro _ _ _ ⟨⟩),fun _ _ => rfl,(by rintro ⟨⟩),
        (by rintro ⟨⟩)⟩
      · cases hkind
        exact ⟨rfl,q,hown,Bool.eq_false_iff.mpr hmark⟩
      · cases hkind
        rfl
    · cases h
  · split at h
    · cases h
    rename_i item hitem
    split_ifs at h with hffa hconditional hmark
    · exact picked_pickOwn .ffa hitem rfl (iff_of_true hffa rfl) h
    · exact picked_pickOwn .conditional hitem rfl (iff_of_false hffa (by rintro ⟨⟩)) h
    · cases h
      refine ⟨rfl,(by rintro _ ⟨⟩),(by rintro _ _ ⟨⟩),(by rintro _ _ _ ⟨⟩),(by rintro _ ⟨⟩),fun _ other hother hffa' => ?_,fun _ other hother => ?_⟩
      · rw [Option.some.inj (hother.symm.trans hitem)] at hffa'
        exact absurd hffa' hffa
      · rw [Option.some.inj (hother.symm.trans hitem)]
        exact Bool.eq_false_iff.mpr hmark

theorem picked_storable (hkeys : Keys loot) {allowed : LootItem → Bool} {canStore : Bool}
    {pick : Pick} {item : LootItem}
    (h : loot.storable player slot allowed canStore=some (pick,item)) :
    Picked loot player pick ∧ loot.get pick.place=some item := by
  unfold Loot.storable at h
  split at h
  · cases h
  rename_i found hfound
  split at h
  · cases h
  rename_i other hother
  split_ifs at h
  cases h
  exact ⟨picked_lootItemInSlot hkeys hfound,hother⟩

/-! ## Filling -/

theorem get_enter (f : Filling) (other : Place) :
    (loot.enter f player index).get other=
      if f.kind.place index=other then (loot.get other).map f.note else loot.get other := by
  unfold Loot.enter
  split
  · rename_i hnone
    split
    · rename_i heq
      rw [← heq,hnone]
      rfl
    · rfl
  · have hget : ∀ l : Loot,∀ lists count,({l with lists := lists,unlootedCount := count} : Loot).get
        other=l.get other := fun l lists count => by cases other <;> rfl
    rw [hget,get_modify]

@[simp] theorem given_enter (f : Filling) : (loot.enter f player index).given=loot.given := by
  unfold Loot.enter
  split
  · rfl
  · exact given_modify _

@[simp] theorem length_items_enter (f : Filling) :
    (loot.enter f player index).items.length=loot.items.length := by
  unfold Loot.enter
  split
  · rfl
  · exact length_items_modify _

@[simp] theorem length_quest_items_enter (f : Filling) :
    (loot.enter f player index).quest_items.length=loot.quest_items.length := by
  unfold Loot.enter
  split
  · rfl
  · exact length_quest_items_modify _

theorem lists_enter {item : LootItem} (f : Filling) (kind : Kind)
    (h : loot.get (f.kind.place index)=some item) :
    (loot.enter f player index).lists kind=
      if kind=f.kind then loot.lists kind++[⟨player,index,false⟩] else loot.lists kind := by
  unfold Loot.enter
  rw [h]
  dsimp only
  by_cases hkind : kind=f.kind
  · subst hkind
    rw [Function.update_self,if_pos rfl]
  · rw [Function.update_of_ne hkind,if_neg hkind]

/-- Nothing is listed for another player or in another list, and old entries stay. -/
theorem own_enter (f : Filling) (kind : Kind) (player' index' : ℕ) {q : QuestItem}
    (h : loot.own kind player' index'=some q) :
    (loot.enter f player index).own kind player' index'=some q := by
  unfold Loot.enter
  split
  · exact h
  unfold Loot.own at h ⊢
  dsimp only
  by_cases hkind : kind=f.kind
  · subst hkind
    rw [Function.update_self]
    unfold lookup at h ⊢
    rw [List.find?_append,h]
    rfl
  · rw [Function.update_of_ne hkind]
    exact h

end Projectnelth.LootModel
