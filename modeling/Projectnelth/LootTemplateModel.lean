import Mathlib
import Projectnelth.LootGroupModel

/-!
# Loot templates

A template holds entries and groups. An entry may stand for another template, whose loot is rolled
in its place. Two look-ups go through a template and what it references for quest drops, and
`Process` goes through it to roll the loot. Whether an entry is hit is left open.
-/

namespace Projectnelth.LootGroupModel

variable {σ : Type}

/-- The entries of a group. -/
def LootGroup.entries (group : LootGroup) : List LootStoreItem :=
  group.ExplicitlyChanced++group.EqualChanced

structure LootTemplate where
  Entries : List LootStoreItem
  Groups : List (Option LootGroup)
  deriving DecidableEq, Repr

/-- The group of a number, from one on. -/
def LootTemplate.group? (t : LootTemplate) (groupId : ℕ) : Option LootGroup :=
  (t.Groups[groupId-1]?).join

def LootTemplate.addEntry (t : LootTemplate) (item : LootStoreItem) : LootTemplate :=
  if item.group > 0 ∧ item.mincountOrRef > 0 then
    let groups := t.Groups++List.replicate (item.group-t.Groups.length) none
    let group := (t.group? item.group).getD .empty
    {t with Groups := groups.set (item.group-1) (some (group.addEntry item))}
  else {t with Entries := t.Entries++[item]}

/-- The template that an entry references. -/
def LootStoreItem.reference (item : LootStoreItem) : ℕ := (-item.mincountOrRef).toNat

/-- `LootTemplateMap`: templates by their ids, which reference each other without a circle. -/
structure LootTemplateMap where
  find : ℕ → Option LootTemplate
  /-- How far the references of a template go. -/
  rank : ℕ → ℕ
  /-- A reference leads further down. -/
  acyclic : ∀ id t,find id=some t → ∀ item∈t.Entries,item.mincountOrRef < 0 →
    (find item.reference).isSome → rank item.reference < rank id

/-! ## The look-ups -/

/-- The look-ups of a group. -/
def LootGroup.has (wanted : LootStoreItem → Bool) (group : LootGroup) : Bool :=
  group.ExplicitlyChanced.any wanted || group.EqualChanced.any wanted

/-- The turn of the loop over the entries, where `look` is the call for a referenced template. -/
def lookEntry (store : LootTemplateMap) (wanted : LootStoreItem → Bool)
    (look : LootTemplate → ℕ → Option Bool) (item : LootStoreItem) : Option Bool :=
  if item.mincountOrRef < 0 then
    match store.find item.reference with
    | none => some false
    | some referenced => look referenced item.group
  else some (wanted item)

/-- The look-ups of a template, whose bodies differ in what is wanted of an entry only. -/
def LootTemplate.look (store : LootTemplateMap) (wanted : LootStoreItem → Bool) :
    ℕ → LootTemplate → ℕ → Option Bool
  | 0,_,_ => none
  | fuel+1,t,groupId =>
    if groupId≠0 then some ((t.group? groupId).any (LootGroup.has wanted))
    else do
      let found ← t.Entries.anyM (lookEntry store wanted (LootTemplate.look store wanted fuel))
      some (found || t.Groups.any fun group => group.any (LootGroup.has wanted))

def LootTemplate.hasQuestDrop (store : LootTemplateMap) (fuel : ℕ) (t : LootTemplate)
    (groupId : ℕ) : Option Bool :=
  t.look store LootStoreItem.needs_quest fuel groupId

/-- `LootTemplate::HasQuestDropForPlayer`, for what the player has a quest for. -/
def LootTemplate.hasQuestDropForPlayer (store : LootTemplateMap) (hasQuestForItem : ℕ → Bool)
    (fuel : ℕ) (t : LootTemplate) (groupId : ℕ) : Option Bool :=
  t.look store (fun item => hasQuestForItem item.itemid) fuel groupId

/-! ## Rolling -/

/-- An entry that a roll of a group may yield in a mode. -/
def LootGroup.Rolls (group : LootGroup) (lootMode : ℕ) (item : LootStoreItem) : Prop :=
  ∃ s dice weighted_calc roll,s.lootMode=lootMode ∧
    0 ≤ roll ∧ roll ≤ group.rollMax s dice weighted_calc ∧
    (group.roll s dice weighted_calc roll).1=some item

/-- How the rolls turn out. -/
structure Fate (σ : Type) (lootMode : ℕ) where
  /-- `LootStoreItem::Roll`. -/
  roll : σ → LootStoreItem → Bool×σ
  /-- `LootGroup::Roll`. -/
  rollGroup : σ → LootGroup → Option LootStoreItem×σ
  /-- `Loot::AddItem`. -/
  addItem : σ → LootStoreItem → σ
  /-- A group yields what its roll may yield. -/
  possible : ∀ s group item,(rollGroup s group).1=some item → group.Rolls lootMode item

/-- A loot in the making. -/
structure Making (σ : Type) where
  /-- What the rolls read. -/
  state : σ
  /-- The entries that were passed to `Loot::AddItem`. -/
  added : List LootStoreItem

/-- What `Process` goes by beside the template. -/
structure Rules where
  /-- `LootTemplates_Reference`. -/
  references : LootTemplateMap
  lootMode : ℕ
  /-- How often a reference is followed, by its `maxcount` and the rate. -/
  amount : ℕ → ℕ

variable {rules : Rules}

/-- `Loot::AddItem` for an entry. -/
def Making.addItem (fate : Fate σ rules.lootMode) (m : Making σ) (item : LootStoreItem) :
    Making σ :=
  ⟨fate.addItem m.state item,m.added++[item]⟩

def LootGroup.process (fate : Fate σ rules.lootMode) (group : LootGroup) (m : Making σ) :
    Making σ :=
  let (item,state) := fate.rollGroup m.state group
  match item with
  | some item => Making.addItem fate ⟨state,m.added⟩ item
  | none => ⟨state,m.added⟩

/-- The turn of the loop over the groups. -/
def processSlot (fate : Fate σ rules.lootMode) (m : Making σ) : Option LootGroup → Making σ
  | some group => group.process fate m
  | none => m

/-- A body that is run a number of times. -/
def times {α : Type} (body : α → Option α) : ℕ → α → Option α
  | 0,a => some a
  | n+1,a => (body a).bind (times body n)

/-- The turn of the loop over the entries, where `process` is the call for a referenced
template. -/
def processEntry (fate : Fate σ rules.lootMode)
    (process : LootTemplate → Making σ → Option (Making σ)) (m : Making σ)
    (item : LootStoreItem) : Option (Making σ) :=
  if item.lootmode &&& rules.lootMode=0 then some m
  else
    let (hit,state) := fate.roll m.state item
    let m : Making σ := ⟨state,m.added⟩
    if !hit then some m
    else if item.mincountOrRef < 0 then
      match rules.references.find item.reference with
      | none => some m
      | some referenced => times (process referenced) (rules.amount item.maxcount) m
    else some (m.addItem fate item)

def LootTemplate.process (fate : Fate σ rules.lootMode) :
    ℕ → LootTemplate → ℕ → Making σ → Option (Making σ)
  | 0,_,_,_ => none
  | fuel+1,t,groupId,m =>
    if groupId≠0 then
      match t.group? groupId with
      | none => some m
      | some group => some (group.process fate m)
    else do
      -- the group that a reference names is not passed on
      let m ← t.Entries.foldlM
        (processEntry fate fun referenced m => LootTemplate.process fate fuel referenced 0 m) m
      some (t.Groups.foldl (processSlot fate) m)

end Projectnelth.LootGroupModel
