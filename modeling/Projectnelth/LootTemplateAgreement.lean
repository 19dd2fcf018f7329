import Mathlib
import Projectnelth.LootTemplateDrops

/-!
# Where rolling and the look-ups agree

The group a reference names reaches the look-ups but not `Process`. So both walks agree exactly
where what is followed is found in the same table and holds nothing beside the group that is named.
-/

namespace Projectnelth.LootGroupModel

variable {σ : Type} {rules : Rules} {store references : LootTemplateMap} {t r : LootTemplate}
variable {group : LootGroup} {item entry : LootStoreItem} {groupId fuel : ℕ}
variable {fate : Fate σ rules.lootMode} {m m' : Making σ}

/-! ## Rolling ends -/

theorem foldlM_isSome {α : Type} {f : Making σ → α → Option (Making σ)} {l : List α}
    (h : ∀ x∈l,∀ m,(f m x).isSome=true) : (l.foldlM f m).isSome=true := by
  induction l generalizing m with
  | nil => rfl
  | cons x l ih =>
    obtain ⟨mid,hmid⟩ := Option.isSome_iff_exists.mp (h x List.mem_cons_self m)
    rw [List.foldlM_cons,hmid]
    exact ih fun y hy => h y (List.mem_cons_of_mem x hy)

theorem times_isSome {body : Making σ → Option (Making σ)} (h : ∀ m,(body m).isSome=true) (n : ℕ) :
    (times body n m).isSome=true := by
  induction n generalizing m with
  | zero => rfl
  | succ n ih =>
    obtain ⟨mid,hmid⟩ := Option.isSome_iff_exists.mp (h m)
    unfold times
    rw [hmid]
    exact ih

theorem processEntry_isSome (fate : Fate σ rules.lootMode)
    (process : LootTemplate → Making σ → Option (Making σ)) (item : LootStoreItem) (m : Making σ)
    (h : item.mincountOrRef < 0 → ∀ r,rules.references.find item.reference=some r →
      ∀ m,(process r m).isSome=true) : (processEntry fate process m item).isSome=true := by
  unfold processEntry
  split
  · rfl
  dsimp only
  split
  · rfl
  split
  · rename_i hnegative
    split
    · rfl
    · rename_i r hr
      exact times_isSome (h hnegative r hr) _
  · rfl

theorem process_isSome_succ
    (h : ∀ item∈t.Entries,item.mincountOrRef < 0 →
      ∀ r,rules.references.find item.reference=some r →
        ∀ m,(r.process fate fuel 0 m).isSome=true) :
    (t.process fate (fuel+1) groupId m).isSome=true := by
  unfold LootTemplate.process
  split
  · split <;> rfl
  have hentries := foldlM_isSome (m := m)
    (f := processEntry fate fun r m => r.process fate fuel 0 m) fun item hitem _ =>
      processEntry_isSome fate _ item _ (h item hitem)
  obtain ⟨mid,hmid⟩ := Option.isSome_iff_exists.mp hentries
  rw [hmid]
  rfl

theorem process_isSome_of_find {id : ℕ} (hfind : rules.references.find id=some t)
    (hfuel : rules.references.rank id < fuel) :
    (t.process fate fuel groupId m).isSome=true := by
  induction fuel generalizing t id groupId m with
  | zero => omega
  | succ fuel ih =>
    refine process_isSome_succ fun item hitem hnegative r hr m => ih hr ?_
    have hlower := rules.references.acyclic id t hfind item hitem hnegative (by rw [hr]; rfl)
    omega

/-- Rolling any template ends. -/
theorem process_isSome (fate : Fate σ rules.lootMode) (groupId : ℕ) (m : Making σ)
    (hfuel : rules.references.depth t ≤ fuel) :
    (t.process fate fuel groupId m).isSome=true := by
  cases fuel with
  | zero =>
    unfold LootTemplateMap.depth at hfuel
    omega
  | succ fuel =>
    refine process_isSome_succ fun item hitem _ r hr m => process_isSome_of_find hr ?_
    have hlt := rank_lt_depth rules.references hitem
    omega

/-! ## Tables -/

/-- Tables in which an entry stands in one place. -/
structure Placed (references : LootTemplateMap) : Prop where
  /-- It stands in one place of its template. -/
  wellFormed : ∀ id r,references.find id=some r → r.WellFormed
  once : ∀ id id' r r',references.find id=some r → references.find id'=some r' →
    ∀ item,item∈r.all → item∈r'.all → id=id'

/-- A template and a table that have nothing of the table of references. -/
def Apart (store references : LootTemplateMap) (t : LootTemplate) : Prop :=
  ∀ id r,references.find id=some r → ∀ item∈r.all,
    item∉t.all ∧ ∀ id' r',store.find id'=some r' → item∉r'.all

/-- What is walked from a template of the table is in the table, and no further up. -/
theorem Walked.placed (h : Walked rules t groupId item) {id : ℕ}
    (hfind : rules.references.find id=some t) :
    ∃ id' r,rules.references.find id'=some r ∧ item∈r.all ∧
      rules.references.rank id' ≤ rules.references.rank id := by
  induction h generalizing id with
  | group _ hitem _ => exact ⟨id,_,hfind,mem_all_of_groupEntries hitem,le_refl _⟩
  | plain hitem _ _ => exact ⟨id,_,hfind,List.mem_append_left _ hitem,le_refl _⟩
  | slot hslot hitem _ => exact ⟨id,_,hfind,mem_all_of_slot hslot hitem,le_refl _⟩
  | follow hleads _ ih =>
    obtain ⟨id',r,hr,hitem,hle⟩ := ih hleads.found
    have hlower := rules.references.acyclic id _ hfind _ hleads.entry hleads.negative
      (by rw [hleads.found]; rfl)
    exact ⟨id',r,hr,hitem,hle.trans hlower.le⟩

theorem Visited.placed (h : Visited store t groupId item) :
    item∈t.all ∨ ∃ id r,store.find id=some r ∧ item∈r.all := by
  induction h with
  | group _ hitem => exact Or.inl (mem_all_of_groupEntries hitem)
  | plain hitem _ => exact Or.inl (List.mem_append_left _ hitem)
  | slot hslot hitem => exact Or.inl (mem_all_of_slot hslot hitem)
  | follow _ _ hfind _ ih =>
    rcases ih with hhere | hthere
    · exact Or.inr ⟨_,_,hfind,hhere⟩
    · exact Or.inr hthere

/-! ## Templates with a single group -/

/-- A template that yields nothing. -/
def Barren (rules : Rules) (t : LootTemplate) : Prop := ∀ item,¬Walked rules t 0 item

/-- A template that holds nothing that can drop beside one group. -/
structure Sole (rules : Rules) (t : LootTemplate) (groupId : ℕ) : Prop where
  /-- Its entries are references that lead to nothing. -/
  entries : ∀ item∈t.Entries,rules.Live item →
    item.mincountOrRef < 0 ∧ ∀ r,rules.Leads t item r → Barren rules r
  /-- Its other groups are empty. -/
  groups : ∀ n group,t.Groups[n]?=some (some group) → n+1≠groupId →
    ∀ item∈group.entries,¬rules.Live item

theorem Sole.mem (h : Sole rules t groupId) (hwalked : Walked rules t 0 item) :
    item∈t.groupEntries groupId := by
  cases hwalked with
  | group hne => exact absurd rfl hne
  | plain hitem hlive hplain => exact absurd (h.entries item hitem hlive).1 hplain
  | follow hleads hwalked =>
    exact absurd hwalked ((h.entries _ hleads.entry hleads.live).2 _ hleads item)
  | slot hslot hitem hlive =>
    obtain ⟨n,hn⟩ := List.mem_iff_getElem?.mp hslot
    by_cases hgroup : n+1=groupId
    · unfold LootTemplate.groupEntries
      rw [group?_eq_some_iff.mpr (by rw [← hgroup]; exact hn)]
      exact hitem
    · exact absurd hlive (h.groups n _ hn hgroup item hitem)

theorem LootTemplate.WellFormed.index_eq (h : t.WellFormed) {group' : LootGroup} {i j : ℕ}
    (hi : t.Groups[i]?=some (some group)) (hj : t.Groups[j]?=some (some group'))
    (hitem : item∈group.entries) (hitem' : item∈group'.entries) : i=j := by
  have hpairwise := (List.nodup_flatMap.mp (List.nodup_append.mp h.nodup).2.1).2
  rw [List.pairwise_iff_getElem] at hpairwise
  obtain ⟨hi',hgroup⟩ := List.getElem?_eq_some_iff.mp hi
  obtain ⟨hj',hgroup'⟩ := List.getElem?_eq_some_iff.mp hj
  rcases lt_trichotomy i j with hlt | heq | hlt
  · have hdisjoint := hpairwise i j hi' hj' hlt
    rw [hgroup,hgroup'] at hdisjoint
    exact absurd hitem' (hdisjoint hitem)
  · exact heq
  · have hdisjoint := hpairwise j i hj' hi' hlt
    rw [hgroup,hgroup'] at hdisjoint
    exact absurd hitem (hdisjoint hitem')

/-- A template of the table that yields entries of one group only holds nothing beside it. -/
theorem sole_of_walked (hplaced : Placed rules.references) {id : ℕ}
    (hfind : rules.references.find id=some t) (hgroup : groupId≠0)
    (h : ∀ item,Walked rules t 0 item → item∈t.groupEntries groupId) : Sole rules t groupId := by
  have ht := hplaced.wellFormed id t hfind
  have hslot : ∀ item∈t.groupEntries groupId,∃ group,
      t.Groups[groupId-1]?=some (some group) ∧ item∈group.entries := by
    intro item hitem
    unfold LootTemplate.groupEntries at hitem
    cases hfound : t.group? groupId with
    | none =>
      rw [hfound] at hitem
      cases hitem
    | some group =>
      rw [hfound] at hitem
      exact ⟨group,group?_eq_some_iff.mp hfound,hitem⟩
  constructor
  · intro item hitem hlive
    constructor
    · -- an entry in no group would be yielded
      by_contra hplain
      obtain ⟨group,hgroups,hmem⟩ := hslot item (h item (.plain hitem hlive hplain))
      refine (List.nodup_append.mp ht.nodup).2.2 item hitem item ?_ rfl
      exact List.mem_flatMap.mpr ⟨some group,List.mem_of_getElem? hgroups,hmem⟩
    · -- an entry of another template would be
      intro r hleads entry hwalked
      have hmem := mem_all_of_groupEntries (h entry (.follow hleads hwalked))
      obtain ⟨id',r',hr',hmem',hle⟩ := hwalked.placed hleads.found
      have hlower := rules.references.acyclic id t hfind item hitem hleads.negative
        (by rw [hleads.found]; rfl)
      obtain rfl := hplaced.once id id' t r' hfind hr' entry hmem hmem'
      omega
  · intro n group hgroups hother item hitem hlive
    have hyielded := h item (.slot (List.mem_of_getElem? hgroups) hitem hlive)
    obtain ⟨group',hgroups',hmem⟩ := hslot item hyielded
    have hindex := ht.index_eq hgroups hgroups' hitem hmem
    omega

/-! ## The law -/

/-- The entries of the group that a reference names. -/
def namedEntries (references : LootTemplateMap) (item : LootStoreItem) : List LootStoreItem :=
  match references.find item.reference with
  | some r => r.groupEntries item.group
  | none => []

/-- What is rolled is what is looked through. -/
structure Agrees (store : LootTemplateMap) (rules : Rules) (t : LootTemplate) (groupId : ℕ) :
    Prop where
  /-- What is added is visited by the look-ups. -/
  visited : ∀ (σ : Type) (fate : Fate σ rules.lootMode) fuel m m',
    t.process fate fuel groupId m=some m' →
    ∀ item∈m'.added,item∈m.added ∨ Visited store t groupId item
  /-- Without a quest drop no quest entry is added. -/
  quest : ∀ fuel,t.hasQuestDrop store fuel groupId=some false →
    ∀ (σ : Type) (fate : Fate σ rules.lootMode) fuel m m',
      t.process fate fuel groupId m=some m' →
      ∀ item∈m'.added,item∈m.added ∨ item.needs_quest=false
  /-- Without one for a player no entry for a quest of the player is added. -/
  player : ∀ hasQuestForItem fuel,
    t.hasQuestDropForPlayer store hasQuestForItem fuel groupId=some false →
    ∀ (σ : Type) (fate : Fate σ rules.lootMode) fuel m m',
      t.process fate fuel groupId m=some m' →
      ∀ item∈m'.added,item∈m.added ∨ hasQuestForItem item.itemid=false
  /-- A reference that names a group adds entries of the group. -/
  group : ∀ item,Follows rules t groupId item → item.group≠0 →
    ∀ (σ : Type) (fate : Fate σ rules.lootMode) fuel m m',
      processEntry fate (fun r m => r.process fate fuel 0 m) m item=some m' →
      ∀ entry∈m'.added,entry∈m.added ∨ entry∈namedEntries rules.references item

/-- The calls on a template end. -/
structure Returns (store : LootTemplateMap) (rules : Rules) (t : LootTemplate) (groupId : ℕ) :
    Prop where
  look : ∃ enough,∀ fuel ≥ enough,∀ wanted,(t.look store wanted fuel groupId).isSome=true
  process : ∃ enough,∀ fuel ≥ enough,∀ (σ : Type) (fate : Fate σ rules.lootMode) m,
    (t.process fate fuel groupId m).isSome=true

/-- Each reference that is followed leads to nothing that can drop, or to a template that the
look-ups find as well and that holds nothing beside the group if one is named. -/
def ReferencesFit (store : LootTemplateMap) (rules : Rules) (t : LootTemplate) (groupId : ℕ) :
    Prop :=
  ∀ item r,Follows rules t groupId item → rules.references.find item.reference=some r →
    Barren rules r ∨
      store.find=rules.references.find ∧ (item.group=0 ∨ Sole rules r item.group)

theorem returns (store : LootTemplateMap) (rules : Rules) (t : LootTemplate) (groupId : ℕ) :
    Returns store rules t groupId where
  look := ⟨store.depth t,fun _ hfuel _ => look_isSome hfuel⟩
  process := ⟨rules.references.depth t,fun _ hfuel _ _ _ => process_isSome _ _ _ hfuel⟩

theorem Follows.groupId_eq (h : Follows rules t groupId item) : groupId=0 := by
  cases h <;> rfl

theorem Follows.leads (h : Follows rules t groupId item) : ∃ t r,rules.Leads t item r := by
  induction h with
  | here hleads => exact ⟨_,_,hleads⟩
  | deeper _ _ ih => exact ih

theorem Follows.walked (h : Follows rules t groupId item)
    (hfind : rules.references.find item.reference=some r) (hwalked : Walked rules r 0 entry) :
    Walked rules t 0 entry := by
  induction h with
  | here hleads =>
    obtain rfl := Option.some.inj (hleads.found.symm.trans hfind)
    exact .follow hleads hwalked
  | deeper hleads _ ih => exact .follow hleads (ih hfind)

theorem ReferencesFit.below (h : ReferencesFit store rules t 0) (hleads : rules.Leads t item r) :
    ReferencesFit store rules r 0 :=
  fun entry r' hfollows => h entry r' (.deeper hleads hfollows)

/-- Where the references fit, the look-ups visit what is walked. -/
theorem ReferencesFit.visited (h : ReferencesFit store rules t groupId)
    (hwalked : Walked rules t groupId item) : Visited store t groupId item := by
  induction hwalked with
  | group hgroup hitem _ => exact .group hgroup hitem
  | plain hitem _ hplain => exact .plain hitem hplain
  | slot hslot hitem _ => exact .slot hslot hitem
  | @follow t r reference item hleads hwalked ih =>
    rcases h reference r (.here hleads) hleads.found with hbarren | ⟨hstore,hnamed⟩
    · exact absurd hwalked (hbarren item)
    refine .follow hleads.entry hleads.negative (by rw [hstore]; exact hleads.found) ?_
    rcases hnamed with hzero | hsole
    · rw [hzero]
      exact ih (h.below hleads)
    · by_cases hzero : reference.group=0
      · rw [hzero]
        exact ih (h.below hleads)
      · exact .group hzero (hsole.mem hwalked)

/-- The calls on any template of any tables end, and rolling it agrees with the look-ups exactly
where the references fit. -/
theorem agrees_iff (store : LootTemplateMap) (rules : Rules) (t : LootTemplate) (groupId : ℕ)
    (ht : t.WellFormed) (hplaced : Placed rules.references)
    (hstore : store.find=rules.references.find ∨ Apart store rules.references t) :
    Returns store rules t groupId ∧
      (Agrees store rules t groupId ↔ ReferencesFit store rules t groupId) := by
  refine ⟨returns store rules t groupId,fun hagrees => ?_,fun hfit => ?_⟩
  · intro item r hfollows hfind
    by_cases hbarren : Barren rules r
    · exact Or.inl hbarren
    right
    obtain ⟨entry,hwalked⟩ := not_forall_not.mp hbarren
    rcases hstore with hsame | hapart
    · refine ⟨hsame,?_⟩
      by_cases hzero : item.group=0
      · exact Or.inl hzero
      right
      refine sole_of_walked hplaced hfind hzero fun entry hwalked => ?_
      -- rolls that add the entry while the reference is followed
      obtain ⟨t',r',hleads⟩ := hfollows.leads
      obtain rfl := Option.some.inj (hleads.found.symm.trans hfind)
      have hends : ∀ n : Making Unit,(r'.process (fateFor entry rules.lootMode)
          (rules.references.depth r') 0 n).isSome=true := fun n => process_isSome _ _ _ (le_refl _)
      have hentry := processEntry_isSome (fateFor entry rules.lootMode)
        (fun r n => r.process (fateFor entry rules.lootMode) (rules.references.depth r') 0 n)
        item ⟨(),[]⟩ fun _ r hr => by
          obtain rfl := Option.some.inj (hfind.symm.trans hr)
          exact hends
      obtain ⟨m',hrun⟩ := Option.isSome_iff_exists.mp hentry
      have hadded := reaches_entry (rules.references.depth r') hleads
        (fun n n' hprocess => reaches_process hplaced.wellFormed
          (hplaced.wellFormed _ _ hfind) hwalked hprocess) hrun
      have hnamed := (hagrees.group item hfollows hzero Unit _ _ _ m' hrun entry hadded).resolve_left
        List.not_mem_nil
      unfold namedEntries at hnamed
      rwa [hfind] at hnamed
    · -- what the reference yields is in no table that the look-ups go through
      exfalso
      obtain rfl := hfollows.groupId_eq
      have hentry := hfollows.walked hfind hwalked
      obtain ⟨m',hrun⟩ := Option.isSome_iff_exists.mp
        (process_isSome (fateFor entry rules.lootMode) 0 ⟨(),[]⟩
          (le_refl (rules.references.depth t)))
      have hadded := reaches_process hplaced.wellFormed ht hentry hrun
      have hvisited := (hagrees.visited Unit _ _ _ m' hrun entry hadded).resolve_left
        List.not_mem_nil
      obtain ⟨id,s,hs,hmem,_⟩ := hwalked.placed hfind
      obtain ⟨hnot,hnone⟩ := hapart id s hs entry hmem
      rcases hvisited.placed with hhere | ⟨id',r',hr',hthere⟩
      · exact hnot hhere
      · exact hnone id' r' hr' hthere
  · have hvisited : ∀ (σ : Type) (fate : Fate σ rules.lootMode) fuel m m',
        t.process fate fuel groupId m=some m' →
        ∀ item∈m'.added,item∈m.added ∨ Visited store t groupId item :=
      fun σ fate fuel m m' hrun item hitem =>
        ((adds_process hrun).fresh item hitem).imp_right hfit.visited
    -- a look-up that finds nothing has visited nothing that is wanted
    have hlook : ∀ (wanted : LootStoreItem → Bool) fuel,t.look store wanted fuel groupId=some false →
        ∀ item,Visited store t groupId item → wanted item=false := by
      intro wanted fuel hfalse item hitem
      by_contra hwanted
      have htrue := (look_spec hfalse).mpr ⟨item,hitem,Bool.of_not_eq_false hwanted⟩
      cases htrue
    refine ⟨hvisited,?_,?_,?_⟩
    · intro fuel hfalse σ fate fuel' m m' hrun item hitem
      exact (hvisited σ fate fuel' m m' hrun item hitem).imp_right (hlook _ fuel hfalse item)
    · intro hasQuestForItem fuel hfalse σ fate fuel' m m' hrun item hitem
      exact (hvisited σ fate fuel' m m' hrun item hitem).imp_right (hlook _ fuel hfalse item)
    intro item hfollows hgroup σ fate fuel m m' hrun entry hentry
    obtain ⟨t',r',hleads⟩ := hfollows.leads
    have hadds := adds_entry (t := t') (fun r m m' => adds_process) hleads.entry hrun
    refine (hadds.fresh entry hentry).imp_right fun hyields => ?_
    rcases hyields with ⟨_,hplain,_⟩ | ⟨r,hleads',hwalked⟩
    · exact absurd hleads.negative hplain
    unfold namedEntries
    rw [hleads'.found]
    rcases hfit item r hfollows hleads'.found with hbarren | ⟨_,hzero | hsole⟩
    · exact absurd hwalked (hbarren entry)
    · exact absurd hzero hgroup
    · exact hsole.mem hwalked

/-- A template with an entry in one group and a quest entry in another. -/
def pairTemplate : LootTemplate :=
  (LootTemplate.empty.addEntry (.create 1 20 40 1 1 1 1 0)).addEntry (.create 2 21 (-40) 1 2 1 1 0)

/-- A template with a reference to the first of these groups. -/
def namingTemplate : LootTemplate := LootTemplate.empty.addEntry (.create 3 0 100 1 1 (-5) 1 0)

/-- A table of the two templates. -/
def pairTable : LootTemplateMap where
  find := fun id => if id=5 then some pairTemplate else if id=6 then some namingTemplate else none
  rank := id
  acyclic := by
    intro id t hfind item hitem _ hsome
    split_ifs at hfind with hfive hsix
    · cases hfind
      cases hitem
    · cases hfind
      obtain rfl := List.mem_singleton.mp hitem
      subst hsix
      decide

/-- The rules by which the two templates are rolled. -/
def pairRules : Rules := ⟨pairTable,1,id⟩

theorem wellFormed_pairTemplate : pairTemplate.WellFormed :=
  (wellFormed_emptyTemplate.addEntry List.not_mem_nil).addEntry (by decide +kernel)

theorem wellFormed_namingTemplate : namingTemplate.WellFormed :=
  wellFormed_emptyTemplate.addEntry List.not_mem_nil

theorem placed_pairTable : Placed pairTable := by
  have hcases : ∀ id r,pairTable.find id=some r →
      id=5 ∧ r=pairTemplate ∨ id=6 ∧ r=namingTemplate := by
    intro id r hfind
    unfold pairTable at hfind
    dsimp only at hfind
    split_ifs at hfind with hfive hsix
    · exact Or.inl ⟨hfive,(Option.some.inj hfind).symm⟩
    · exact Or.inr ⟨hsix,(Option.some.inj hfind).symm⟩
  have hdisjoint : ∀ item∈pairTemplate.all,item∉namingTemplate.all := by decide +kernel
  constructor
  · intro id r hfind
    rcases hcases id r hfind with ⟨_,rfl⟩ | ⟨_,rfl⟩
    · exact wellFormed_pairTemplate
    · exact wellFormed_namingTemplate
  · intro id id' r r' hfind hfind' item hitem hitem'
    rcases hcases id r hfind with ⟨rfl,rfl⟩ | ⟨rfl,rfl⟩ <;>
      rcases hcases id' r' hfind' with ⟨rfl,rfl⟩ | ⟨rfl,rfl⟩
    · rfl
    · exact absurd hitem' (hdisjoint item hitem)
    · exact absurd hitem (hdisjoint item hitem')
    · rfl

/-- A template with an entry of another loot mode. -/
def silentTemplate : LootTemplate := LootTemplate.empty.addEntry (.create 5 22 30 2 0 1 1 0)

/-- A template with an entry and a reference to that one. -/
def creatureTemplate : LootTemplate :=
  (LootTemplate.empty.addEntry (.create 6 23 50 1 0 1 1 0)).addEntry (.create 7 0 100 1 0 (-5) 1 0)

/-- A table of references. -/
def silentTable : LootTemplateMap where
  find := fun id => if id=5 then some silentTemplate else none
  rank := id
  acyclic := by
    intro id t hfind item hitem hnegative _
    split_ifs at hfind
    cases hfind
    rw [List.mem_singleton.mp hitem] at hnegative
    exact absurd hnegative (by decide)

/-- A table beside it. -/
def creatureTable : LootTemplateMap where
  find := fun id => if id=9 then some creatureTemplate else none
  rank := id
  acyclic := by
    intro id t hfind item hitem hnegative hsome
    split_ifs at hfind
    cases hfind
    rcases List.mem_pair.mp hitem with rfl | rfl
    · exact absurd hnegative (by decide)
    · exact absurd hsome (by decide)

theorem find_silentTable {id : ℕ} {r : LootTemplate} (h : silentTable.find id=some r) :
    id=5 ∧ r=silentTemplate := by
  unfold silentTable at h
  dsimp only at h
  split_ifs at h with hfive
  exact ⟨hfive,(Option.some.inj h).symm⟩

/-- The template that is referenced yields nothing of the loot mode. -/
theorem barren_silentTemplate : Barren ⟨silentTable,1,id⟩ silentTemplate := by
  intro item h
  cases h with
  | group hne => exact hne rfl
  | plain hitem hlive =>
    rw [List.mem_singleton.mp hitem] at hlive
    exact hlive (by decide)
  | follow hleads =>
    have hnegative := hleads.negative
    rw [List.mem_singleton.mp hleads.entry] at hnegative
    exact absurd hnegative (by decide)
  | slot hslot => cases hslot

theorem agrees_iff_apart : Agrees creatureTable ⟨silentTable,1,id⟩ creatureTemplate 0 := by
  have hplaced : Placed silentTable := by
    constructor
    · intro id r hfind
      rw [(find_silentTable hfind).2]
      exact wellFormed_emptyTemplate.addEntry List.not_mem_nil
    · intro id id' r r' hfind hfind' _ _ _
      rw [(find_silentTable hfind).1,(find_silentTable hfind').1]
  have hapart : Apart creatureTable silentTable creatureTemplate := by
    intro id r hfind item hitem
    rw [(find_silentTable hfind).2] at hitem
    have hnot : ∀ item∈silentTemplate.all,item∉creatureTemplate.all := by decide +kernel
    refine ⟨hnot item hitem,fun id' r' hfind' => ?_⟩
    unfold creatureTable at hfind'
    dsimp only at hfind'
    split_ifs at hfind'
    rw [← Option.some.inj hfind']
    exact hnot item hitem
  refine (agrees_iff creatureTable ⟨silentTable,1,id⟩ creatureTemplate 0
    ((wellFormed_emptyTemplate.addEntry List.not_mem_nil).addEntry (by decide +kernel)) hplaced
    (Or.inr hapart)).2.mpr fun item r _ hfind => Or.inl ?_
  rw [(find_silentTable hfind).2]
  exact barren_silentTemplate

/-- The look-up sees the named group only, and the quest entry of the other group is rolled. -/
theorem not_agrees_naming : ¬Agrees pairTable pairRules namingTemplate 0 := by
  intro h
  have hleads : pairRules.Leads namingTemplate (.create 3 0 100 1 1 (-5) 1 0) pairTemplate :=
    ⟨List.mem_singleton.mpr rfl,by unfold Rules.Live; decide,by decide,rfl,by decide⟩
  have hgroup : some (⟨[.create 2 21 (-40) 1 2 1 1 0],[]⟩ : LootGroup)∈pairTemplate.Groups := by
    decide +kernel
  have hwalked : Walked pairRules namingTemplate 0 (.create 2 21 (-40) 1 2 1 1 0) := by
    refine .follow hleads (.slot hgroup ?_ ?_)
    · exact List.mem_singleton.mpr rfl
    · unfold Rules.Live
      decide
  obtain ⟨m',hrun⟩ := Option.isSome_iff_exists.mp (process_isSome
    (fateFor (.create 2 21 (-40) 1 2 1 1 0) pairRules.lootMode) 0 ⟨(),[]⟩ (le_refl (pairRules.references.depth namingTemplate)))
  have hadded := reaches_process placed_pairTable.wellFormed wellFormed_namingTemplate hwalked hrun
  have hfalse : namingTemplate.hasQuestDrop pairTable 2 0=some false := by decide +kernel
  have hquest := (h.quest 2 hfalse Unit _ _ _ m' hrun _ hadded).resolve_left List.not_mem_nil
  revert hquest
  decide +kernel

end Projectnelth.LootGroupModel
