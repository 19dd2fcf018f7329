import Mathlib
import Projectnelth.LootModel
import Projectnelth.StackSplit

/-!
# The stacks of a rolled amount

`AddItem` splits the rolled amount into stacks and appends them to the list of the entry, up to the
limit of the list. A count is a byte, as is the greatest amount of an entry.
-/

namespace Projectnelth.LootModel

open StackSplit

/-- The list an entry is added to. -/
def Loot.listFor (loot : Loot) (li : LootStoreItem) : List LootItem :=
  if li.needs_quest=true then loot.quest_items else loot.items

/-- The list an entry is not added to. -/
def Loot.otherList (loot : Loot) (li : LootStoreItem) : List LootItem :=
  if li.needs_quest=true then loot.items else loot.quest_items

/-- The limit of the list an entry is added to. -/
def LootStoreItem.limit (li : LootStoreItem) : ℕ :=
  if li.needs_quest=true then MAX_NR_QUEST_ITEMS else MAX_NR_LOOT_ITEMS

/-- The entries that `AddItem` counts itself. -/
def LootStoreItem.plain (li : LootStoreItem) (proto : ItemTemplate) : Bool :=
  !li.needs_quest && !li.conditional && !proto.partyLoot

/-- What a call of `AddItem` appends to a loot. -/
structure Appended (proto : ItemTemplate) (li : LootStoreItem) (loot loot' : Loot)
    (added : List LootItem) : Prop where
  /-- The entries come behind those of the list. -/
  list : loot'.listFor li=loot.listFor li++added
  /-- The other list is left alone. -/
  other : loot'.otherList li=loot.otherList li
  frame : loot'.gold=loot.gold ∧ loot'.lists=loot.lists ∧ loot'.given=loot.given
  /-- Each plain entry is counted. -/
  counted : loot'.unlootedCount=
    loot.unlootedCount+UInt8.ofNat (if li.plain proto=true then added.length else 0)

variable {proto : ItemTemplate} {li : LootStoreItem} {drop : ℕ → Option ℕ} {loot : Loot}

theorem Appended.trans {mid loot' : Loot} {first rest : List LootItem}
    (h : Appended proto li loot mid first) (h' : Appended proto li mid loot' rest) :
    Appended proto li loot loot' (first++rest) := by
  constructor
  · rw [h'.list,h.list,List.append_assoc]
  · rw [h'.other,h.other]
  · obtain ⟨hgold,hlists,hgiven⟩ := h'.frame
    rw [hgold,hlists,hgiven]
    exact h.frame
  · rw [h'.counted,h.counted]
    cases li.plain proto <;> simp [UInt8.ofNat_add,UInt8.add_assoc]

/-- A full list gets nothing more. -/
theorem addStacks_full (hfull : li.limit ≤ (loot.listFor li).length) (bases minmax : ℕ) :
    addStacks proto li drop bases minmax loot=loot := by
  induction bases with
  | zero => rfl
  | succ bases ih =>
    unfold addStacks
    dsimp only
    rw [if_neg (by unfold Loot.listFor LootStoreItem.limit at hfull; omega)]
    exact ih

/-- The loot when one more stack is in it. -/
def Loot.pushStack (loot : Loot) (proto : ItemTemplate) (li : LootStoreItem) (item : LootItem) :
    Loot :=
  let pushed : Loot :=
    if li.needs_quest=true then {loot with quest_items := loot.quest_items++[item]}
    else {loot with items := loot.items++[item]}
  if li.needs_quest=false ∧ li.conditional=false ∧ proto.partyLoot=false then
    {pushed with unlootedCount := pushed.unlootedCount+1}
  else pushed

theorem appended_pushStack (item : LootItem) :
    Appended proto li loot (loot.pushStack proto li item) [item] := by
  have hplain : li.plain proto=true ↔
      li.needs_quest=false ∧ li.conditional=false ∧ proto.partyLoot=false := by
    simp [LootStoreItem.plain,and_assoc]
  unfold Loot.pushStack
  constructor
  · cases hquest : li.needs_quest <;> dsimp only [Loot.listFor] <;> split_ifs <;> simp_all
  · cases hquest : li.needs_quest <;> dsimp only [Loot.otherList] <;> split_ifs <;> simp_all
  · dsimp only
    split_ifs <;> exact ⟨rfl,rfl,rfl⟩
  · simp only [hplain]
    split_ifs <;> simp

/-- With room, and a count that a byte holds, the next stack is pushed. -/
theorem addStacks_push {bases itemid m : ℕ} (hroom : (loot.listFor li).length < li.limit)
    (hitem : drop bases=some itemid) (hbyte : m < 256) :
    addStacks proto li drop (bases+1) m loot=
      addStacks proto li drop bases (m-min m proto.maxStackSize)
        (loot.pushStack proto li (newLootItem proto li itemid (min m proto.maxStackSize))) := by
  have hcount : min m proto.maxStackSize%256=min m proto.maxStackSize :=
    Nat.mod_eq_of_lt (by omega)
  unfold Loot.listFor LootStoreItem.limit at hroom
  rw [addStacks]
  dsimp only
  rw [if_pos hroom,hitem,hcount]
  rfl

/-- The entries that come into the list hold as much as the stacks of the amount. -/
theorem addStacks_appended (hdrop : ∀ i,drop i≠none) (hsize : 0 < proto.maxStackSize)
    (bases : ℕ) {m : ℕ} (hbyte : m < 256) (hbases : bases=pilesFor proto.maxStackSize m)
    (loot : Loot) :
    ∃ added,Appended proto li loot (addStacks proto li drop bases m loot) added ∧
      added.map LootItem.count=
        piles proto.maxStackSize (min bases (li.limit-(loot.listFor li).length)) m := by
  induction bases generalizing m loot with
  | zero =>
    refine ⟨[],⟨(List.append_nil _).symm,rfl,⟨rfl,rfl,rfl⟩,?_⟩,?_⟩
    · simp [addStacks]
    · simp [piles]
  | succ bases ih =>
    by_cases hroom : (loot.listFor li).length < li.limit
    · obtain ⟨itemid,hitem⟩ := Option.ne_none_iff_exists'.mp (hdrop bases)
      have hrest := pilesFor_rest hsize ((pilesFor_pos hsize).mp (by omega : 0 < pilesFor _ m))
      have hfirst := @appended_pushStack proto li loot
        (newLootItem proto li itemid (min m proto.maxStackSize))
      obtain ⟨added,hadded,hcounts⟩ := ih (m := m-min m proto.maxStackSize) (by omega) (by omega)
        (loot.pushStack proto li (newLootItem proto li itemid (min m proto.maxStackSize)))
      refine ⟨_,by rw [addStacks_push hroom hitem hbyte]; exact hfirst.trans hadded,?_⟩
      have hleft : min (bases+1) (li.limit-(loot.listFor li).length)=
          min bases (li.limit-(loot.listFor li).length-1)+1 := by omega
      rw [hfirst.list,List.length_append,List.length_singleton,← Nat.sub_sub] at hcounts
      rw [List.map_append,hcounts,hleft,piles]
      rfl
    · refine ⟨[],?_,?_⟩
      · rw [addStacks_full (by omega)]
        exact ⟨(List.append_nil _).symm,rfl,⟨rfl,rfl,rfl⟩,by simp⟩
      · have hzero : min (bases+1) (li.limit-(loot.listFor li).length)=0 := by omega
        rw [hzero]
        rfl

/-- An amount is split into the entries exactly, as far as there is room. -/
structure SplitExactly (size amount room : ℕ) (added : List LootItem) : Prop where
  number : added.length=min (pilesFor size amount) room
  /-- None is empty or above the size of a stack. -/
  within : ∀ item∈added,1 ≤ item.count ∧ item.count ≤ size
  full : ∀ item∈added.dropLast,item.count=size
  left : added.map LootItem.count=piles size added.length amount
  sum : pilesFor size amount ≤ room → (added.map LootItem.count).sum=amount

/-- The amounts that the range of an entry allows: from the least to the greatest count of it,
which is a byte. -/
structure Rolled.InRange (r : Rolled) (mincount : ℕ) : Prop where
  /-- The least count of a valid entry. -/
  pos : 1 ≤ mincount
  /-- What `urand` gives is not less. -/
  least : mincount ≤ r.random
  /-- It is not more than the greatest count. -/
  greatest : r.random ≤ r.li.maxcount
  /-- `maxcount` is a byte. -/
  byte : r.li.maxcount < 256

/-- `AddItem` splits what was rolled into stacks, and no more stacks than there is room for. -/
theorem addItem_splits_exactly (r : Rolled) (proto : ItemTemplate) (mincount : ℕ) (loot : Loot)
    (hproto : r.proto=some proto) (hsize : 1 ≤ proto.maxStackSize) (hrange : r.InRange mincount)
    (hdrop : ∀ i,r.drop i≠none) :
    ∃ added,Appended proto r.li loot (loot.addItem r) added ∧
      SplitExactly proto.maxStackSize r.random (r.li.limit-(loot.listFor r.li).length) added := by
  have hbyte : r.random < 256 := hrange.greatest.trans_lt hrange.byte
  have hpos : 0 < r.random := hrange.pos.trans hrange.least
  have hminmax : (if r.li.maxcount ≤ 1 then 1 else r.random)=r.random := by
    have hmost := hrange.greatest
    split_ifs <;> omega
  have hadd : loot.addItem r=addStacks proto r.li r.drop (pilesFor proto.maxStackSize r.random)
      r.random loot := by
    unfold Loot.addItem
    rw [hproto]
    dsimp only
    rw [hminmax,pilesFor_eq hsize hpos]
  obtain ⟨added,hadded,hcounts⟩ := addStacks_appended hdrop hsize _ hbyte rfl loot
  rw [← hadd] at hadded
  have hlength : added.length=min (pilesFor proto.maxStackSize r.random)
      (r.li.limit-(loot.listFor r.li).length) := by
    rw [← List.length_map LootItem.count,hcounts,length_piles]
  have hneeded : added.length ≤ pilesFor proto.maxStackSize r.random := by omega
  rw [← hlength] at hcounts
  refine ⟨added,hadded,hlength,?_,?_,hcounts,?_⟩
  · intro item hitem
    refine piles_within hsize hneeded item.count ?_
    rw [← hcounts]
    exact List.mem_map_of_mem hitem
  · intro item hitem
    refine piles_full hsize hneeded item.count ?_
    rw [← hcounts,← List.map_dropLast]
    exact List.mem_map_of_mem hitem
  · intro hfits
    rw [hcounts]
    exact sum_piles hsize (by omega)

/-- Forty-five of an item with stacks of twenty, with room for all: two full stacks and one of
five. -/
theorem addItem_splits_exactly_sample :
    ∃ added,Appended ⟨20,false,false⟩ ⟨7,60,false,false⟩ (Loot.empty 0)
        ((Loot.empty 0).addItem ⟨some ⟨20,false,false⟩,⟨7,60,false,false⟩,45,fun _ => some 7⟩)
        added ∧
      SplitExactly 20 45 16 added :=
  addItem_splits_exactly ⟨some ⟨20,false,false⟩,⟨7,60,false,false⟩,45,fun _ => some 7⟩
    ⟨20,false,false⟩ 1 (Loot.empty 0) rfl (by decide) ⟨by decide,by decide,by decide,by decide⟩
    (by simp)

end Projectnelth.LootModel
