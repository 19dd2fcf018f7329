import Mathlib
import Projectnelth.LootGrants

/-!
# Filling the lists of a player

A player that has no entries yet gets, in each list, one for each index that is wanted. The
entries keep everything but the flags that note the listing, so nothing is handed out and no
mark is lost.
-/

namespace Projectnelth.LootModel

open KeyedList RunInvariant

variable {loot : Loot} {player index : ℕ}

/-- An entry before and after it was listed. -/
def Noted (item old : LootItem) : Prop :=
  item.is_looted=old.is_looted ∧ item.freeforall=old.freeforall ∧ item.count=old.count ∧
    item.conditional=old.conditional

theorem Noted.comesFrom {item old : LootItem} (h : Noted item old) : ComesFrom item old :=
  ⟨h.2.1,fun hno => ⟨h.1 ▸ hno,h.2.2.1⟩⟩

theorem Noted.trans {a b c : LootItem} (hab : Noted a b) (hbc : Noted b c) : Noted a c :=
  ⟨hab.1.trans hbc.1,hab.2.1.trans hbc.2.1,hab.2.2.1.trans hbc.2.2.1,hab.2.2.2.trans hbc.2.2.2⟩

/-- A filling that only notes what it lists. -/
def Filling.Notes (f : Filling) : Prop := ∀ item,Noted (f.note item) item

theorem notes_questFilling (w : Viewer) : (questFilling w).Notes := by
  intro item
  dsimp only [questFilling]
  split <;> exact ⟨rfl,rfl,rfl,rfl⟩

theorem notes_ffaFilling (w : Viewer) : (ffaFilling w).Notes := fun _ => ⟨rfl,rfl,rfl,rfl⟩

theorem notes_conditionalFilling (w : Viewer) : (conditionalFilling w).Notes :=
  fun _ => ⟨rfl,rfl,rfl,rfl⟩

/-- The entries of the indices are listed one after the other. -/
def Loot.enterAll (f : Filling) (player : ℕ) (loot : Loot) (indices : List ℕ) : Loot :=
  indices.foldl (Loot.enter f player) loot

variable {f : Filling} {indices : List ℕ}

theorem noted_enterAll (hf : f.Notes) (indices : List ℕ) (loot : Loot) (place : Place)
    (item : LootItem) (h : (loot.enterAll f player indices).get place=some item) :
    ∃ old,loot.get place=some old ∧ Noted item old := by
  induction indices generalizing loot with
  | nil => exact ⟨item,h,rfl,rfl,rfl,rfl⟩
  | cons i indices ih =>
    obtain ⟨mid,hmid,hnoted⟩ := ih (loot.enter f player i) h
    rw [get_enter] at hmid
    split at hmid
    · obtain ⟨old,hold,rfl⟩ := Option.map_eq_some_iff.mp hmid
      exact ⟨old,hold,hnoted.trans (hf old)⟩
    · exact ⟨mid,hmid,hnoted⟩

theorem get_enterAll_of_ne (place : Place) (h : ∀ i∈indices,f.kind.place i≠place) :
    (loot.enterAll f player indices).get place=loot.get place := by
  induction indices generalizing loot with
  | nil => rfl
  | cons i indices ih =>
    have hrest : ((loot.enter f player i).enterAll f player indices).get place=_ :=
      ih fun j hj => h j (List.mem_cons_of_mem i hj)
    refine hrest.trans ?_
    rw [get_enter,if_neg (h i List.mem_cons_self)]

theorem later_enterAll (hf : f.Notes) (indices : List ℕ) (loot : Loot) :
    Later loot (loot.enterAll f player indices) := by
  induction indices generalizing loot with
  | nil => exact .refl loot
  | cons i indices ih =>
    exact (Later.enter (fun item => (hf item).comesFrom) loot player i).trans (ih _)

theorem given_enterAll (indices : List ℕ) (loot : Loot) :
    (loot.enterAll f player indices).given=loot.given := by
  induction indices generalizing loot with
  | nil => rfl
  | cons i indices ih => exact (ih _).trans (given_enter f)

theorem length_enterAll (indices : List ℕ) (loot : Loot) :
    (loot.enterAll f player indices).items.length=loot.items.length ∧
      (loot.enterAll f player indices).quest_items.length=loot.quest_items.length := by
  induction indices generalizing loot with
  | nil => exact ⟨rfl,rfl⟩
  | cons i indices ih =>
    exact ⟨(ih _).1.trans (length_items_enter f),(ih _).2.trans (length_quest_items_enter f)⟩

theorem mem_lists_enter {kind : Kind} {q : QuestItem}
    (h : q∈(loot.enter f player index).lists kind) :
    q∈loot.lists kind ∨ (kind=f.kind ∧ q=⟨player,index,false⟩) := by
  cases hget : loot.get (f.kind.place index) with
  | none =>
    unfold Loot.enter at h
    rw [hget] at h
    exact Or.inl h
  | some item =>
    rw [lists_enter f kind hget] at h
    split at h
    · exact (List.mem_append.mp h).imp_right fun hq => ⟨‹_›,List.mem_singleton.mp hq⟩
    · exact Or.inl h

theorem mem_lists_enterAll {kind : Kind} {q : QuestItem}
    (h : q∈(loot.enterAll f player indices).lists kind) :
    q∈loot.lists kind ∨ (kind=f.kind ∧ q.player=player ∧ q.index∈indices ∧ q.is_looted=false) := by
  induction indices generalizing loot with
  | nil => exact Or.inl h
  | cons i indices ih =>
    have hrest : q∈((loot.enter f player i).enterAll f player indices).lists kind := h
    obtain hmem | ⟨hkind,hplayer,hindex,hfree⟩ := ih hrest
    · refine (mem_lists_enter hmem).imp_right fun hnew => ?_
      obtain ⟨hkind,rfl⟩ := hnew
      exact ⟨hkind,rfl,List.mem_cons_self,rfl⟩
    · exact Or.inr ⟨hkind,hplayer,List.mem_cons_of_mem i hindex,hfree⟩

theorem own_enterAll {kind : Kind} {player' index' : ℕ} {q : QuestItem}
    (h : loot.own kind player' index'=some q) :
    (loot.enterAll f player indices).own kind player' index'=some q := by
  induction indices generalizing loot with
  | nil => exact h
  | cons i indices ih => exact ih (own_enter f kind player' index' h)

theorem own_enterAll_of_mem (hindex : index∈indices)
    (hget : (loot.get (f.kind.place index)).isSome=true) :
    ((loot.enterAll f player indices).own f.kind player index).isSome=true := by
  induction indices generalizing loot with
  | nil => cases hindex
  | cons i indices ih =>
    obtain rfl | hindex := List.mem_cons.mp hindex
    · obtain ⟨item,hitem⟩ := Option.isSome_iff_exists.mp hget
      have hmem : (⟨player,index,false⟩ : QuestItem)∈(loot.enter f player index).lists f.kind := by
        rw [lists_enter f f.kind hitem,if_pos rfl]
        exact List.mem_append_right _ (List.mem_singleton.mpr rfl)
      cases hown : (loot.enter f player index).own f.kind player index with
      | none =>
        have hne : (⟨player,index,false⟩ : QuestItem).key≠(player,index) :=
          key_ne_of_lookup_none hown hmem
        exact absurd rfl hne
      | some q =>
        have hstays : ((loot.enter f player index).enterAll f player indices).own f.kind player
          index=some q := own_enterAll hown
        exact Option.isSome_iff_exists.mpr ⟨q,hstays⟩
    · have hrest : (((loot.enter f player i).enterAll f player indices).own f.kind player
        index).isSome=true := by
        refine ih hindex ?_
        rw [get_enter]
        split
        · rw [Option.isSome_map]
          exact hget
        · exact hget
      exact hrest

theorem Keys.enterAll (h : Keys loot) (hnodup : indices.Nodup)
    (hnew : ∀ i∈indices,∀ q∈loot.lists f.kind,q.key≠(player,i)) :
    Keys (loot.enterAll f player indices) := by
  induction indices generalizing loot with
  | nil => exact h
  | cons i indices ih =>
    obtain ⟨hi,hnodup⟩ := List.nodup_cons.mp hnodup
    have hrest : Keys (loot.enter f player i) →
        (∀ j∈indices,∀ q∈(loot.enter f player i).lists f.kind,q.key≠(player,j)) →
          Keys ((loot.enter f player i).enterAll f player indices) := fun h hnew => ih h hnodup hnew
    refine hrest (fun kind => ?_) fun j hj q hq => ?_
    · cases hget : loot.get (f.kind.place i) with
      | none =>
        unfold Loot.enter
        rw [hget]
        exact h kind
      | some item =>
        rw [lists_enter f kind hget]
        split
        · rename_i hkind
          rw [List.map_append,List.map_singleton,← List.concat_eq_append,List.nodup_concat]
          refine ⟨fun hmem => ?_,h kind⟩
          obtain ⟨q,hq,heq⟩ := List.mem_map.mp hmem
          exact hnew i List.mem_cons_self q (hkind ▸ hq) heq
        · exact h kind
    · obtain hold | ⟨_,rfl⟩ := mem_lists_enter hq
      · exact hnew j (List.mem_cons_of_mem i hj) q hold
      · intro heq
        have hij : i=j := (Prod.mk.inj heq).2
        exact hi (hij ▸ hj)

/-- The indices that are wanted are distinct. -/
theorem nodup_wantedBy (loot : Loot) (f : Filling) (size : ℕ) : (loot.wantedBy f size).Nodup :=
  List.nodup_range.filter _

theorem mem_wantedBy {size i : ℕ} :
    i∈loot.wantedBy f size ↔ i < size ∧ ∃ item,loot.get (f.kind.place i)=some item ∧
      f.wanted item=true := by
  unfold Loot.wantedBy
  rw [List.mem_filter,List.mem_range,Option.any_eq_true]

theorem fillLists_keeps {P : Loot → Prop} {w : Viewer} (h : P loot)
    (hquest : (loot.listOf .quest w.player).isEmpty=true → P (loot.fillQuestLoot w))
    (hffa : ∀ loot,P loot → (loot.listOf .ffa w.player).isEmpty=true → P (loot.fillFFALoot w))
    (hconditional : ∀ loot,P loot → (loot.listOf .conditional w.player).isEmpty=true →
      P (loot.fillConditionalLoot w)) : P (loot.fillLists w) := by
  have hfirst : P (if (loot.listOf .quest w.player).isEmpty then loot.fillQuestLoot w else loot) := by
    split
    · exact hquest ‹_›
    · exact h
  have hsecond : ∀ loot,P loot →
      P (if (loot.listOf .ffa w.player).isEmpty then loot.fillFFALoot w else loot) := by
    intro loot h
    split
    · exact hffa loot h ‹_›
    · exact h
  have hthird : ∀ loot,P loot →
      P (if (loot.listOf .conditional w.player).isEmpty then loot.fillConditionalLoot w
        else loot) := by
    intro loot h
    split
    · exact hconditional loot h ‹_›
    · exact h
  exact hthird _ (hsecond _ hfirst)

end Projectnelth.LootModel
