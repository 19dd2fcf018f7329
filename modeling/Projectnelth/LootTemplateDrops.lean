import Mathlib
import Projectnelth.LootTemplateWalks

/-!
# Rolling a template against looking through it

`Process` adds what its walk comes to and nothing else, and some rolls add each of it. With that
the walks are compared: they agree exactly where each reference that is followed leads to a
template of the same table, and to its named group alone.
-/

namespace Projectnelth.LootGroupModel

variable {σ : Type} {rules : Rules} {store references : LootTemplateMap} {t r : LootTemplate}
variable {group : LootGroup} {item entry : LootStoreItem} {groupId fuel : ℕ}
variable {fate : Fate σ rules.lootMode} {m m' m'' : Making σ} {P Q : LootStoreItem → Prop}

/-! ## What is added -/

/-- Nothing added is lost, and what is new has a property. -/
structure Adds (P : LootStoreItem → Prop) (m m' : Making σ) : Prop where
  kept : m.added ⊆ m'.added
  /-- The rest has the property. -/
  fresh : ∀ item∈m'.added,item∈m.added ∨ P item

theorem Adds.refl (m : Making σ) : Adds P m m := ⟨fun _ => id,fun _ => Or.inl⟩

theorem Adds.state {added : List LootStoreItem} {s s' : σ} : Adds P ⟨s,added⟩ ⟨s',added⟩ :=
  ⟨fun _ => id,fun _ => Or.inl⟩

theorem Adds.trans (h : Adds P m m') (h' : Adds P m' m'') : Adds P m m'' := by
  refine ⟨fun _ hitem => h'.kept (h.kept hitem),fun item hitem => ?_⟩
  rcases h'.fresh item hitem with hold | hnew
  · exact h.fresh item hold
  · exact Or.inr hnew

theorem Adds.mono (h : Adds P m m') (hPQ : ∀ item,P item → Q item) : Adds Q m m' :=
  ⟨h.kept,fun item hitem => (h.fresh item hitem).imp_right (hPQ item)⟩

theorem adds_addItem (fate : Fate σ rules.lootMode) (m : Making σ) (h : P item) :
    Adds P m (m.addItem fate item) := by
  refine ⟨fun _ => List.mem_append_left _,fun entry hentry => ?_⟩
  rcases List.mem_append.mp hentry with hold | hnew
  · exact Or.inl hold
  · obtain rfl := List.mem_singleton.mp hnew
    exact Or.inr h

theorem adds_group (fate : Fate σ rules.lootMode) (group : LootGroup) (m : Making σ) :
    Adds (fun item => item∈group.entries ∧ rules.Live item) m (group.process fate m) := by
  unfold LootGroup.process
  dsimp only
  split
  · rename_i item hitem
    exact Adds.state.trans
      (adds_addItem fate _ (Rolls.mem (fate.possible m.state group item hitem)))
  · exact .state

theorem adds_slots (fate : Fate σ rules.lootMode) (slots : List (Option LootGroup))
    (m : Making σ) (h : ∀ group,some group∈slots → ∀ item∈group.entries,rules.Live item → P item) :
    Adds P m (slots.foldl (processSlot fate) m) := by
  induction slots generalizing m with
  | nil => exact .refl m
  | cons slot slots ih =>
    have hslot : Adds P m (processSlot fate m slot) := by
      cases slot with
      | none => exact .refl m
      | some group =>
        refine (adds_group fate group m).mono fun item hitem => ?_
        exact h group List.mem_cons_self item hitem.1 hitem.2
    exact hslot.trans (ih _ fun group hgroup => h group (List.mem_cons_of_mem slot hgroup))

theorem adds_foldlM {α : Type} {f : Making σ → α → Option (Making σ)} {l : List α}
    (h : ∀ x∈l,∀ m m',f m x=some m' → Adds P m m') (hrun : l.foldlM f m=some m') :
    Adds P m m' := by
  induction l generalizing m with
  | nil =>
    obtain rfl : m=m' := Option.some.inj hrun
    exact .refl m
  | cons x l ih =>
    rw [List.foldlM_cons] at hrun
    obtain ⟨mid,hmid,hrest⟩ := Option.bind_eq_some_iff.mp hrun
    exact (h x List.mem_cons_self m mid hmid).trans
      (ih (fun y hy => h y (List.mem_cons_of_mem x hy)) hrest)

theorem adds_times {body : Making σ → Option (Making σ)} {n : ℕ}
    (h : ∀ m m',body m=some m' → Adds P m m') (hrun : times body n m=some m') : Adds P m m' := by
  induction n generalizing m with
  | zero =>
    obtain rfl : m=m' := Option.some.inj hrun
    exact .refl m
  | succ n ih =>
    obtain ⟨mid,hmid,hrest⟩ := Option.bind_eq_some_iff.mp hrun
    exact (h m mid hmid).trans (ih hrest)

/-- What an entry of a template yields. -/
def Rules.Yields (rules : Rules) (t : LootTemplate) (item entry : LootStoreItem) : Prop :=
  rules.Live item ∧ ¬item.mincountOrRef < 0 ∧ entry=item ∨
    ∃ r,rules.Leads t item r ∧ Walked rules r 0 entry

theorem adds_entry {process : LootTemplate → Making σ → Option (Making σ)}
    (h : ∀ r m m',process r m=some m' → Adds (Walked rules r 0) m m') (hitem : item∈t.Entries)
    (hrun : processEntry fate process m item=some m') : Adds (rules.Yields t item) m m' := by
  unfold processEntry at hrun
  split at hrun
  · obtain rfl := Option.some.inj hrun
    exact .refl m
  rename_i hlive
  dsimp only at hrun
  have hstate : Adds (rules.Yields t item) m ⟨(fate.roll m.state item).2,m.added⟩ := .state
  split at hrun
  · obtain rfl := Option.some.inj hrun
    exact hstate
  split at hrun
  · rename_i hnegative
    split at hrun
    · obtain rfl := Option.some.inj hrun
      exact hstate
    rename_i r hr
    cases hn : rules.amount item.maxcount with
    | zero =>
      rw [hn] at hrun
      obtain rfl := Option.some.inj hrun
      exact hstate
    | succ n =>
      have hleads : rules.Leads t item r := ⟨hitem,hlive,hnegative,hr,by omega⟩
      refine hstate.trans (adds_times (fun m m' hbody => ?_) hrun)
      exact (h r m m' hbody).mono fun entry hentry => Or.inr ⟨r,hleads,hentry⟩
  · rename_i hplain
    obtain rfl := Option.some.inj hrun
    exact hstate.trans (adds_addItem fate _ (Or.inl ⟨hlive,hplain,rfl⟩))

theorem walked_of_yields (hitem : item∈t.Entries) (h : rules.Yields t item entry) :
    Walked rules t 0 entry := by
  rcases h with ⟨hlive,hplain,rfl⟩ | ⟨r,hleads,hwalked⟩
  · exact .plain hitem hlive hplain
  · exact .follow hleads hwalked

/-- Rolling adds entries that its walk comes to. -/
theorem adds_process (h : t.process fate fuel groupId m=some m') :
    Adds (Walked rules t groupId) m m' := by
  induction fuel generalizing t groupId m m' with
  | zero => cases h
  | succ fuel ih =>
    unfold LootTemplate.process at h
    split at h
    · rename_i hgroup
      split at h
      · obtain rfl := Option.some.inj h
        exact .refl m
      rename_i group hfound
      obtain rfl := Option.some.inj h
      refine (adds_group fate group m).mono fun item hitem => .group hgroup ?_ hitem.2
      unfold LootTemplate.groupEntries
      rw [hfound]
      exact hitem.1
    · rename_i hgroup
      obtain rfl : groupId=0 := not_not.mp hgroup
      obtain ⟨mid,hmid,hrest⟩ := Option.bind_eq_some_iff.mp h
      obtain rfl := Option.some.inj hrest
      have hentries : Adds (Walked rules t 0) m mid := by
        refine adds_foldlM (fun item hitem m m' hrun => ?_) hmid
        exact (adds_entry (fun r m m' => ih) hitem hrun).mono fun _ => walked_of_yields hitem
      exact hentries.trans (adds_slots _ _ _ fun group hgroup item => .slot hgroup)

/-! ## Each of it can be added -/

open Classical in
/-- All rolls hit, and a group yields an entry if it may. -/
noncomputable def fateFor (entry : LootStoreItem) (lootMode : ℕ) : Fate Unit lootMode where
  roll := fun _ _ => (true,())
  rollGroup := fun _ group => (if group.Rolls lootMode entry then some entry else none,())
  addItem := fun _ _ => ()
  possible := by
    intro _ group item h
    dsimp only at h
    split at h
    · cases h
      assumption
    · cases h

variable {n n' : Making Unit}

theorem reaches_group (h : group.WellFormed) (hitem : item∈group.entries)
    (hlive : rules.Live item) : item∈(group.process (fateFor item rules.lootMode) n).added := by
  unfold LootGroup.process
  have hrolls : ((fateFor item rules.lootMode).rollGroup n.state group).1=some item :=
    if_pos (h.rolls hitem hlive)
  dsimp only
  rw [hrolls]
  exact List.mem_append_right _ List.mem_cons_self

theorem reaches_foldlM {α : Type} {f : Making σ → α → Option (Making σ)} {l : List α} {x : α}
    (hkept : ∀ x∈l,∀ m m',f m x=some m' → m.added ⊆ m'.added) (hx : x∈l)
    (hreach : ∀ m m',f m x=some m' → item∈m'.added) (hrun : l.foldlM f m=some m') :
    item∈m'.added := by
  induction l generalizing m with
  | nil => cases hx
  | cons y l ih =>
    rw [List.foldlM_cons] at hrun
    obtain ⟨mid,hmid,hrest⟩ := Option.bind_eq_some_iff.mp hrun
    have hkept' : ∀ x∈l,∀ m m',f m x=some m' → m.added ⊆ m'.added :=
      fun x hx => hkept x (List.mem_cons_of_mem y hx)
    rcases List.mem_cons.mp hx with rfl | hx
    · have hadds := adds_foldlM (P := fun _ => True)
        (fun x hx m m' hstep => ⟨hkept' x hx m m' hstep,fun _ _ => Or.inr trivial⟩) hrest
      exact hadds.kept (hreach m mid hmid)
    · exact ih hkept' hx hrest

theorem reaches_entry (fuel : ℕ) (hleads : rules.Leads t item r)
    (hreach : ∀ n n',r.process (fateFor entry rules.lootMode) fuel 0 n=some n' → entry∈n'.added)
    (hrun : processEntry (fateFor entry rules.lootMode)
      (fun r n => r.process (fateFor entry rules.lootMode) fuel 0 n) n item=some n') :
    entry∈n'.added := by
  unfold processEntry at hrun
  have hlive : ¬item.lootmode &&& rules.lootMode=0 := hleads.live
  simp only [if_neg hlive,if_pos hleads.negative,hleads.found] at hrun
  obtain ⟨k,hk⟩ := Nat.exists_eq_succ_of_ne_zero hleads.often.ne'
  rw [hk] at hrun
  obtain ⟨mid,hmid,hrest⟩ := Option.bind_eq_some_iff.mp hrun
  have hadds := adds_times (P := Walked rules r 0) (fun _ _ => adds_process) hrest
  exact hadds.kept (hreach _ mid hmid)

/-- Some rolls add an entry that the walk comes to. -/
theorem reaches_process (hmap : ∀ id r,rules.references.find id=some r → r.WellFormed)
    (ht : t.WellFormed) (h : Walked rules t groupId item)
    (hrun : t.process (fateFor item rules.lootMode) fuel groupId n=some n') : item∈n'.added := by
  induction h generalizing fuel n n' with
  | @group t groupId item hgroup hitem hlive =>
    cases fuel with
    | zero => cases hrun
    | succ fuel =>
      unfold LootTemplate.process at hrun
      rw [if_pos hgroup] at hrun
      unfold LootTemplate.groupEntries at hitem
      cases hfound : t.group? groupId with
      | none =>
        rw [hfound] at hitem
        cases hitem
      | some group =>
        rw [hfound] at hrun hitem
        obtain rfl := Option.some.inj hrun
        exact reaches_group (ht.groups group (mem_of_group? hfound)) hitem hlive
  | @plain t item hitem hlive hplain =>
    cases fuel with
    | zero => cases hrun
    | succ fuel =>
      unfold LootTemplate.process at hrun
      rw [if_neg (not_not.mpr rfl)] at hrun
      obtain ⟨mid,hmid,hrest⟩ := Option.bind_eq_some_iff.mp hrun
      obtain rfl := Option.some.inj hrest
      have hslots := adds_slots (P := fun _ => True) (fateFor item rules.lootMode) t.Groups mid
        fun _ _ _ _ _ => trivial
      refine hslots.kept (reaches_foldlM (fun x hx m m' hstep => ?_) hitem ?_ hmid)
      · exact (adds_entry (fun r m m' => adds_process) hx hstep).kept
      intro m m' hstep
      unfold processEntry at hstep
      have hlive' : ¬item.lootmode &&& rules.lootMode=0 := hlive
      simp only [if_neg hlive',if_neg hplain] at hstep
      obtain rfl := Option.some.inj hstep
      exact List.mem_append_right _ List.mem_cons_self
  | @follow t r reference item hleads _ ih =>
    cases fuel with
    | zero => cases hrun
    | succ fuel =>
      unfold LootTemplate.process at hrun
      rw [if_neg (not_not.mpr rfl)] at hrun
      obtain ⟨mid,hmid,hrest⟩ := Option.bind_eq_some_iff.mp hrun
      obtain rfl := Option.some.inj hrest
      have hslots := adds_slots (P := fun _ => True) (fateFor item rules.lootMode) t.Groups mid
        fun _ _ _ _ _ => trivial
      refine hslots.kept (reaches_foldlM (fun x hx m m' hstep => ?_) hleads.entry ?_ hmid)
      · exact (adds_entry (fun r m m' => adds_process) hx hstep).kept
      · exact fun m m' => reaches_entry fuel hleads fun _ _ => ih (hmap _ r hleads.found)
  | @slot t group item hslot hitem hlive =>
    cases fuel with
    | zero => cases hrun
    | succ fuel =>
      unfold LootTemplate.process at hrun
      rw [if_neg (not_not.mpr rfl)] at hrun
      obtain ⟨mid,hmid,hrest⟩ := Option.bind_eq_some_iff.mp hrun
      obtain rfl := Option.some.inj hrest
      obtain ⟨before,after,hsplit⟩ := List.append_of_mem hslot
      rw [hsplit,List.foldl_append,List.foldl_cons]
      have hslots := adds_slots (P := fun _ => True) (fateFor item rules.lootMode) after
        (processSlot (fateFor item rules.lootMode)
          (before.foldl (processSlot (fateFor item rules.lootMode)) mid) (some group))
        fun _ _ _ _ _ => trivial
      exact hslots.kept (reaches_group (ht.groups group hslot) hitem hlive)

end Projectnelth.LootGroupModel
