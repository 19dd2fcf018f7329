import Mathlib
import Projectnelth.LootGroupOdds
import Projectnelth.LootTemplateModel

/-!
# What loot templates yield and what the look-ups see

Rolling a template and looking through it for quest drops walk the same templates, but `Process`
drops the group that a reference names and always takes the references from the table of
references. So the two agree where a reference names no group, or a template that holds nothing
beside the group.
-/

namespace Projectnelth.LootGroupModel

variable {σ : Type} {rules : Rules} {store references : LootTemplateMap} {t r : LootTemplate}
variable {group : LootGroup} {item entry : LootStoreItem} {groupId fuel : ℕ}
variable {fate : Fate σ rules.lootMode} {m m' : Making σ}

/-! ## Templates as they are loaded -/

/-- The entries of a slot for a group. -/
def slotEntries : Option LootGroup → List LootStoreItem
  | some group => group.entries
  | none => []

/-- All entries of a template. -/
def LootTemplate.all (t : LootTemplate) : List LootStoreItem :=
  t.Entries++t.Groups.flatMap slotEntries

/-- A template of entries that were allocated apart. -/
structure LootTemplate.WellFormed (t : LootTemplate) : Prop where
  /-- The groups were built by `AddEntry`. -/
  groups : ∀ group,some group∈t.Groups → group.WellFormed
  /-- Each entry is kept in a place of its own. -/
  apart : (t.all.map LootStoreItem.address).Nodup

/-- The entries of the group of a number. -/
def LootTemplate.groupEntries (t : LootTemplate) (groupId : ℕ) : List LootStoreItem :=
  slotEntries (t.group? groupId)

theorem group?_eq_some_iff :
    t.group? groupId=some group ↔ t.Groups[groupId-1]?=some (some group) := by
  unfold LootTemplate.group?
  rw [Option.join_eq_some_iff]

theorem mem_of_group? (h : t.group? groupId=some group) : some group∈t.Groups := by
  unfold LootTemplate.group? at h
  rw [Option.join_eq_some_iff] at h
  exact List.mem_of_getElem? h

theorem mem_all_of_slot (hgroup : some group∈t.Groups) (hitem : item∈group.entries) :
    item∈t.all :=
  List.mem_append_right _ (List.mem_flatMap.mpr ⟨some group,hgroup,hitem⟩)

theorem mem_all_of_groupEntries (h : item∈t.groupEntries groupId) : item∈t.all := by
  unfold LootTemplate.groupEntries at h
  cases hgroup : t.group? groupId with
  | none =>
    rw [hgroup] at h
    cases h
  | some group =>
    rw [hgroup] at h
    exact mem_all_of_slot (mem_of_group? hgroup) h

/-- An entry stands in one place of its template. -/
theorem LootTemplate.WellFormed.nodup (h : t.WellFormed) : t.all.Nodup := h.apart.of_map

/-- A template before anything was added. -/
def LootTemplate.empty : LootTemplate := ⟨[],[]⟩

theorem wellFormed_emptyTemplate : LootTemplate.empty.WellFormed where
  groups := by simp [LootTemplate.empty]
  apart := List.nodup_nil

theorem entries_addEntry (group : LootGroup) (item : LootStoreItem) :
    (group.addEntry item).entries.Perm (item::group.entries) := by
  unfold LootGroup.addEntry LootGroup.entries
  split
  · rw [List.append_assoc]
    exact List.perm_middle
  · rw [← List.append_assoc]
    exact List.perm_append_singleton item _

theorem flatMap_set_perm (item : LootStoreItem) (slot : Option LootGroup)
    {slots : List (Option LootGroup)} {k : ℕ} (hk : k < slots.length) (h : (slotEntries slot).Perm (item::slotEntries slots[k])) :
    ((slots.set k slot).flatMap slotEntries).Perm (item::slots.flatMap slotEntries) := by
  have hsplit : slots=slots.take k++slots[k]::slots.drop (k+1) := by simp
  rw [List.set_eq_take_append_cons_drop,if_pos hk]
  conv_rhs => rw [hsplit]
  simp only [List.flatMap_append,List.flatMap_cons]
  refine ((h.append_right _).append_left _).trans ?_
  rw [List.cons_append]
  exact List.perm_middle

theorem flatMap_replicate_none (n : ℕ) : (List.replicate n none).flatMap slotEntries=[] := by
  simp [slotEntries]

/-- An entry goes into the group it names, which is made if need be. -/
theorem all_addEntry (t : LootTemplate) (item : LootStoreItem) :
    (t.addEntry item).all.Perm (item::t.all) := by
  unfold LootTemplate.addEntry
  split
  · rename_i hgrouped
    unfold LootTemplate.all
    dsimp only
    have hlt : item.group-1 <
        (t.Groups++List.replicate (item.group-t.Groups.length) none).length := by
      rw [List.length_append,List.length_replicate]
      omega
    have hslot : (t.group? item.group).getD .empty=
        ((t.Groups++List.replicate (item.group-t.Groups.length) none)[item.group-1]).getD .empty := by
      unfold LootTemplate.group?
      rw [List.getElem_append]
      split
      · rename_i hin
        rw [List.getElem?_eq_getElem hin]
        rfl
      · rename_i hout
        rw [List.getElem?_eq_none (by omega),List.getElem_replicate]
        rfl
    have hentries : ∀ slot : Option LootGroup,(slot.getD .empty).entries=slotEntries slot := by
      intro slot
      cases slot <;> rfl
    have hperm := flatMap_set_perm item
      (some (((t.group? item.group).getD .empty).addEntry item)) hlt (by
        rw [← hentries (_[item.group-1]),← hslot]
        exact entries_addEntry _ item)
    rw [List.flatMap_append,flatMap_replicate_none,List.append_nil] at hperm
    exact (hperm.append_left _).trans List.perm_middle
  · unfold LootTemplate.all
    dsimp only
    rw [List.append_assoc]
    exact List.perm_middle

theorem LootTemplate.WellFormed.addEntry (h : t.WellFormed)
    (hfresh : item.address∉t.all.map LootStoreItem.address) : (t.addEntry item).WellFormed := by
  constructor
  · intro group hgroup
    unfold LootTemplate.addEntry at hgroup
    split at hgroup
    · rcases List.mem_or_eq_of_mem_set hgroup with hold | hnew
      · rcases List.mem_append.mp hold with hold | hgap
        · exact h.groups group hold
        · cases List.eq_of_mem_replicate hgap
      · obtain rfl := Option.some.inj hnew
        cases hfound : t.group? item.group with
        | none => exact wellFormed_empty.addEntry List.not_mem_nil
        | some group =>
          have hslot := mem_of_group? hfound
          refine (h.groups group hslot).addEntry fun haddress => hfresh ?_
          obtain ⟨entry,hentry,heq⟩ := List.mem_map.mp haddress
          rw [← heq]
          exact List.mem_map_of_mem (mem_all_of_slot hslot (List.mem_append_left _ hentry))
    · exact h.groups group hgroup
  · refine ((all_addEntry t item).map LootStoreItem.address).nodup_iff.mpr ?_
    exact List.nodup_cons.mpr ⟨hfresh,h.apart⟩

/-! ## The two walks -/

/-- An entry of the mode. -/
def Rules.Live (rules : Rules) (item : LootStoreItem) : Prop := item.lootmode &&& rules.lootMode≠0

/-- A reference of a template that is followed to another one. -/
structure Rules.Leads (rules : Rules) (t : LootTemplate) (item : LootStoreItem) (r : LootTemplate) :
    Prop where
  /-- The reference is in the template. -/
  entry : item∈t.Entries
  /-- It is of the mode. -/
  live : rules.Live item
  negative : item.mincountOrRef < 0
  /-- The template is there. -/
  found : rules.references.find item.reference=some r
  /-- It is followed at least once. -/
  often : 0 < rules.amount item.maxcount

/-- The entries that `Process` comes to. -/
inductive Walked (rules : Rules) : LootTemplate → ℕ → LootStoreItem → Prop
  /-- The group is asked for. -/
  | group {t : LootTemplate} {groupId : ℕ} {item : LootStoreItem} : groupId≠0 →
    item∈t.groupEntries groupId → rules.Live item → Walked rules t groupId item
  /-- An entry in no group. -/
  | plain {t : LootTemplate} {item : LootStoreItem} : item∈t.Entries → rules.Live item →
    ¬item.mincountOrRef < 0 → Walked rules t 0 item
  /-- All of a referenced template. -/
  | follow {t r : LootTemplate} {reference item : LootStoreItem} : rules.Leads t reference r →
    Walked rules r 0 item → Walked rules t 0 item
  /-- An entry in a group. -/
  | slot {t : LootTemplate} {group : LootGroup} {item : LootStoreItem} : some group∈t.Groups →
    item∈group.entries → rules.Live item → Walked rules t 0 item

/-- The entries that the look-ups come to. -/
inductive Visited (store : LootTemplateMap) : LootTemplate → ℕ → LootStoreItem → Prop
  /-- The group is asked for. -/
  | group {t : LootTemplate} {groupId : ℕ} {item : LootStoreItem} : groupId≠0 →
    item∈t.groupEntries groupId → Visited store t groupId item
  /-- An entry in no group. -/
  | plain {t : LootTemplate} {item : LootStoreItem} : item∈t.Entries →
    ¬item.mincountOrRef < 0 → Visited store t 0 item
  /-- The group of a referenced template, or all of it. -/
  | follow {t r : LootTemplate} {reference item : LootStoreItem} : reference∈t.Entries →
    reference.mincountOrRef < 0 → store.find reference.reference=some r →
    Visited store r reference.group item → Visited store t 0 item
  /-- An entry in a group. -/
  | slot {t : LootTemplate} {group : LootGroup} {item : LootStoreItem} : some group∈t.Groups →
    item∈group.entries → Visited store t 0 item

/-- The references that `Process` follows. -/
inductive Follows (rules : Rules) : LootTemplate → ℕ → LootStoreItem → Prop
  /-- One of the template. -/
  | here {t r : LootTemplate} {item : LootStoreItem} : rules.Leads t item r →
    Follows rules t 0 item
  /-- One of a template that is referenced. -/
  | deeper {t r : LootTemplate} {reference item : LootStoreItem} : rules.Leads t reference r →
    Follows rules r 0 item → Follows rules t 0 item

/-! ## Rolls of a group -/

theorem mem_possibleLoot {s : Setting} {items : List LootStoreItem} (h : item∈s.possibleLoot items) :
    item∈items ∧ item.lootmode &&& s.lootMode≠0 := by
  obtain ⟨hitem,hvalid⟩ := List.mem_filter.mp h
  refine ⟨hitem,fun hmode => ?_⟩
  simp [Setting.lootGroupInvalidSelector,hmode] at hvalid

theorem Rolls.mem {lootMode : ℕ} (h : group.Rolls lootMode item) :
    item∈group.entries ∧ item.lootmode &&& lootMode≠0 := by
  obtain ⟨s,dice,weighted_calc,roll,rfl,_,_,hroll⟩ := h
  have hequal : ∀ entry,dice.selectRandomContainerElement (s.possibleLoot group.EqualChanced)=
      some entry → entry∈group.entries ∧ entry.lootmode &&& s.lootMode≠0 := by
    intro entry hentry
    obtain ⟨hmem,hmode⟩ := mem_possibleLoot (List.mem_of_getElem? hentry)
    exact ⟨List.mem_append_right _ hmem,hmode⟩
  unfold LootGroup.roll at hroll
  dsimp only at hroll
  split at hroll
  · exact hequal item hroll
  split at hroll
  · rename_i found hfound
    cases hroll
    obtain ⟨entry,hentry,hcopy⟩ := List.mem_flatMap.mp (List.mem_of_find?_eq_some hfound)
    rw [insertions_eq] at hcopy
    obtain rfl := List.eq_of_mem_replicate hcopy
    obtain ⟨hmem,hmode⟩ := mem_possibleLoot ((dice.perm _).subset hentry)
    exact ⟨List.mem_append_left _ hmem,hmode⟩
  · exact hequal item hroll

/-- A loot without items for one looter, or for none. -/
def openSetting (lootMode : ℕ) (party : List ℕ) : Setting where
  loot := ⟨[],3,party⟩
  lootMode := lootMode
  findPlayer := some
  isObjectMeetToConditions := fun _ _ => true

theorem possibleLoot_open {lootMode : ℕ} (party : List ℕ) {items : List LootStoreItem}
    (hitem : item∈items) (hmode : item.lootmode &&& lootMode≠0) :
    item∈(openSetting lootMode party).possibleLoot items := by
  refine List.mem_filter.mpr ⟨hitem,?_⟩
  simp [Setting.lootGroupInvalidSelector,openSetting,reachesLimit,hmode]

theorem LootGroup.WellFormed.rolls (h : group.WellFormed) {lootMode : ℕ}
    (hitem : item∈group.entries) (hmode : item.lootmode &&& lootMode≠0) :
    group.Rolls lootMode item := by
  rcases List.mem_append.mp hitem with hchanced | hequal
  · -- a looter that can use it, and a roll within its part of the wheel
    let dice : Dice := ⟨id,fun _ => 0,List.Perm.refl,Nat.zero_le⟩
    have hcandidate : item∈group.candidates (openSetting lootMode [1]) := by
      refine mem_candidates.mpr ⟨possibleLoot_open _ hchanced hmode,?_⟩
      simp [Setting.users,Setting.canUse,openSetting]
    have hwidth : 0 < (openSetting lootMode [1]).width item :=
      mul_pos (Nat.cast_pos.mpr (mem_candidates.mp hcandidate).2)
        (abs_pos.mpr (h.chanced item hchanced))
    have hpos : ∀ total : ℚ,0 < max total 100 := fun total => lt_max_of_lt_right (by norm_num)
    obtain ⟨a,b,_,_,_,hlength,hin,_⟩ := h.hasShare dice 0 hcandidate
    rw [h.rollMax_eq,div_mul_cancel₀ _ (hpos _).ne'] at hlength
    obtain ⟨roll,hroll⟩ := exists_between (show a < b by linarith)
    obtain ⟨hzero,hmax,hyield⟩ := hin hroll
    exact ⟨_,dice,0,roll,rfl,hzero,hmax,hyield⟩
  · -- no looters, so that no entry with a chance is in the way
    obtain ⟨i,hi,hget⟩ := List.mem_iff_getElem.mp
      (possibleLoot_open [] hequal hmode)
    let dice : Dice := ⟨id,min i,List.Perm.refl,fun bound => min_le_right i bound⟩
    refine ⟨openSetting lootMode [],dice,0,0,rfl,le_refl 0,?_,?_⟩
    · rw [h.rollMax_eq]
      exact le_max_of_le_right (by norm_num)
    have hwheel : group.wheel (openSetting lootMode []) dice=[] := by
      refine List.filter_eq_nil_iff.mpr fun entry _ => ?_
      simp [Setting.users,openSetting]
    rw [h.roll_eq,hwheel]
    unfold LootGroup.fallback Dice.selectRandomContainerElement
    have hindex : min i (((openSetting lootMode []).possibleLoot group.EqualChanced).length-1)=i :=
      min_eq_left (by omega)
    rw [RouletteWheel.spin_nil,Option.none_or]
    exact (congrArg (fun k => ((openSetting lootMode []).possibleLoot group.EqualChanced)[k]?)
      hindex).trans ((List.getElem?_eq_getElem hi).trans (congrArg some hget))

/-! ## The look-ups end and see what they visit -/

theorem has_iff {wanted : LootStoreItem → Bool} :
    group.has wanted=true ↔ ∃ item∈group.entries,wanted item=true := by
  unfold LootGroup.has LootGroup.entries
  simp only [Bool.or_eq_true,List.any_eq_true,List.mem_append]
  constructor
  · rintro (⟨item,hitem,h⟩ | ⟨item,hitem,h⟩)
    · exact ⟨item,Or.inl hitem,h⟩
    · exact ⟨item,Or.inr hitem,h⟩
  · rintro ⟨item,hitem | hitem,h⟩
    · exact Or.inl ⟨item,hitem,h⟩
    · exact Or.inr ⟨item,hitem,h⟩

/-- A search that may run out says no only if each element does, and yes only if one does. -/
theorem anyM_spec {α : Type} {f : α → Option Bool} {l : List α} {b : Bool}
    (h : l.anyM f=some b) :
    (b=true → ∃ x∈l,f x=some true) ∧ (b=false → ∀ x∈l,f x=some false) := by
  induction l with
  | nil =>
    obtain rfl : false=b := Option.some.inj h
    simp
  | cons x l ih =>
    rw [List.anyM_cons] at h
    cases hx : f x with
    | none => simp [hx] at h
    | some found =>
      cases found with
      | true =>
        obtain rfl : true=b := by simpa [hx] using h
        simp [hx]
      | false =>
        obtain ⟨hyes,hno⟩ := ih (by simpa [hx] using h)
        refine ⟨fun hb => ?_,fun hb => ?_⟩
        · obtain ⟨y,hy,hfound⟩ := hyes hb
          exact ⟨y,List.mem_cons_of_mem x hy,hfound⟩
        intro y hy
        rcases List.mem_cons.mp hy with rfl | hy
        · exact hx
        · exact hno hb y hy

/-- A search does not run out if no element does. -/
theorem anyM_isSome {α : Type} {f : α → Option Bool} {l : List α}
    (h : ∀ x∈l,(f x).isSome=true) : (l.anyM f).isSome=true := by
  induction l with
  | nil => rfl
  | cons x l ih =>
    obtain ⟨found,hx⟩ := Option.isSome_iff_exists.mp (h x List.mem_cons_self)
    rw [List.anyM_cons,hx]
    cases found with
    | true => rfl
    | false => exact ih fun y hy => h y (List.mem_cons_of_mem x hy)

/-- A look-up is true exactly if something it visits is wanted. -/
theorem look_spec {wanted : LootStoreItem → Bool} {b : Bool}
    (h : t.look store wanted fuel groupId=some b) :
    b=true ↔ ∃ item,Visited store t groupId item ∧ wanted item=true := by
  induction fuel generalizing t groupId b with
  | zero => cases h
  | succ fuel ih =>
    unfold LootTemplate.look at h
    split at h
    · rename_i hgroup
      obtain rfl := Option.some.inj h
      have hentries : (t.group? groupId).any (LootGroup.has wanted)=true ↔
          ∃ item∈t.groupEntries groupId,wanted item=true := by
        unfold LootTemplate.groupEntries
        cases t.group? groupId with
        | none => simp [slotEntries]
        | some group => exact has_iff
      rw [hentries]
      constructor
      · rintro ⟨item,hitem,hwanted⟩
        exact ⟨item,.group hgroup hitem,hwanted⟩
      rintro ⟨item,hvisited,hwanted⟩
      cases hvisited with
      | group _ hitem => exact ⟨item,hitem,hwanted⟩
      | plain => exact absurd rfl hgroup
      | follow => exact absurd rfl hgroup
      | slot => exact absurd rfl hgroup
    · rename_i hgroup
      obtain rfl : groupId=0 := not_not.mp hgroup
      obtain ⟨found,hfound,hrest⟩ := Option.bind_eq_some_iff.mp h
      obtain rfl := Option.some.inj hrest
      obtain ⟨hyes,hno⟩ := anyM_spec hfound
      simp only [Bool.or_eq_true,List.any_eq_true]
      constructor
      · rintro (hentries | ⟨slot,hslot,hhas⟩)
        · obtain ⟨item,hitem,hentry⟩ := hyes hentries
          unfold lookEntry at hentry
          split at hentry
          · rename_i hnegative
            split at hentry
            · cases hentry
            · rename_i referenced hreferenced
              obtain ⟨entry,hvisited,hwanted⟩ := (ih hentry).mp rfl
              exact ⟨entry,.follow hitem hnegative hreferenced hvisited,hwanted⟩
          · rename_i hplain
            exact ⟨item,.plain hitem hplain,Option.some.inj hentry⟩
        · cases slot with
          | none => cases hhas
          | some group =>
            obtain ⟨item,hitem,hwanted⟩ := has_iff.mp hhas
            exact ⟨item,.slot hslot hitem,hwanted⟩
      · rintro ⟨item,hvisited,hwanted⟩
        cases hvisited with
        | group hne => exact absurd rfl hne
        | slot hslot hitem => exact Or.inr ⟨_,hslot,has_iff.mpr ⟨item,hitem,hwanted⟩⟩
        | plain hitem hplain =>
          refine Or.inl (Bool.of_not_eq_false fun hfalse => ?_)
          have hentry := hno hfalse item hitem
          unfold lookEntry at hentry
          rw [if_neg hplain,hwanted] at hentry
          cases hentry
        | follow hreference hnegative hreferenced hvisited =>
          refine Or.inl (Bool.of_not_eq_false fun hfalse => ?_)
          have hentry := hno hfalse _ hreference
          unfold lookEntry at hentry
          rw [if_pos hnegative,hreferenced] at hentry
          have hfound := (ih hentry).mpr ⟨item,hvisited,hwanted⟩
          cases hfound

theorem lookEntry_isSome {wanted : LootStoreItem → Bool} {look : LootTemplate → ℕ → Option Bool}
    (h : item.mincountOrRef < 0 → ∀ r,store.find item.reference=some r →
      (look r item.group).isSome=true) : (lookEntry store wanted look item).isSome=true := by
  unfold lookEntry
  split
  · rename_i hnegative
    split
    · rfl
    · rename_i r hr
      exact h hnegative r hr
  · rfl

/-- A look-up of a template ends if those of the referenced ones do. -/
theorem look_isSome_succ {wanted : LootStoreItem → Bool}
    (h : ∀ item∈t.Entries,item.mincountOrRef < 0 → ∀ r,store.find item.reference=some r →
      (r.look store wanted fuel item.group).isSome=true) :
    (t.look store wanted (fuel+1) groupId).isSome=true := by
  unfold LootTemplate.look
  split
  · rfl
  have hsearch := anyM_isSome (f := lookEntry store wanted (LootTemplate.look store wanted fuel))
    fun item hitem => lookEntry_isSome (h item hitem)
  obtain ⟨found,hfound⟩ := Option.isSome_iff_exists.mp hsearch
  rw [hfound]
  rfl

/-- A look-up of a template in the table ends. -/
theorem look_isSome_of_find {wanted : LootStoreItem → Bool} {id : ℕ} (hfind : store.find id=some t)
    (hfuel : store.rank id < fuel) : (t.look store wanted fuel groupId).isSome=true := by
  induction fuel generalizing t id groupId with
  | zero => omega
  | succ fuel ih =>
    refine look_isSome_succ fun item hitem hnegative r hr => ih hr ?_
    have hlower := store.acyclic id t hfind item hitem hnegative (by rw [hr]; rfl)
    omega

/-- How much fuel the references of a template need. -/
def LootTemplateMap.depth (store : LootTemplateMap) (t : LootTemplate) : ℕ :=
  (t.Entries.map fun item => store.rank item.reference+1).sum+1

theorem rank_lt_depth (store : LootTemplateMap) (hitem : item∈t.Entries) :
    store.rank item.reference+1 < store.depth t := by
  have hle := List.single_le_sum (l := t.Entries.map fun item => store.rank item.reference+1)
    (fun _ _ => Nat.zero_le _) _ (List.mem_map_of_mem hitem)
  unfold LootTemplateMap.depth
  omega

/-- The look-ups of any template end. -/
theorem look_isSome {wanted : LootStoreItem → Bool} (hfuel : store.depth t ≤ fuel) :
    (t.look store wanted fuel groupId).isSome=true := by
  cases fuel with
  | zero =>
    unfold LootTemplateMap.depth at hfuel
    omega
  | succ fuel =>
    refine look_isSome_succ fun item hitem _ r hr => look_isSome_of_find hr ?_
    have hlt := rank_lt_depth store hitem
    omega

end Projectnelth.LootGroupModel
