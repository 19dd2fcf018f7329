import Mathlib
import Projectnelth.InstanceBindActions

/-!
# The switch of a difficulty

A switch copies an entry to the table of another difficulty and gives its save that difficulty,
and the entries that were copied go only at the end. In between, the saves agree with the tables
without those entries.
-/

namespace Projectnelth.InstanceBindModel

open KeyedList TwoSided World

variable {w w' w₁ : World} {T : ℕ → Difficulty×ℕ → Option ℕ} {e : Env} {g ptr raidId : ℕ}
  {group : Group} {save : InstanceSave} {saves : List InstanceSave} {d previous new : Difficulty}

/-- The key of a map that fits, without the LFG flag, is its number. -/
theorem createKey_of_lt {mapId : ℕ} (h : mapId < 65536) : createKey mapId false=mapId := by
  have hmask : mapId &&& 0x00FFFFFF=mapId%2^24 := Nat.and_two_pow_sub_one_eq_mod mapId 24
  unfold createKey
  rw [hmask,Nat.mod_eq_of_lt (by omega)]
  simp

section Marked

/-- The saves with the difficulty of one instance written. -/
def mark (instanceId : ℕ) (d : Difficulty) (saves : List InstanceSave) : List InstanceSave :=
  saves.map fun save => if save.instanceId=instanceId then { save with difficulty := d } else save

/-- Nothing but the difficulty of one instance was written. -/
structure Marked (instanceId : ℕ) (d : Difficulty) (w w' : World) : Prop where
  /-- The groups stay. -/
  groups : w'.groups=w.groups
  /-- So does the next pointer. -/
  nextPtr : w'.nextPtr=w.nextPtr
  fault : w'.fault=w.fault
  /-- The saves stay the same ones. -/
  fixed : w'.saves.map fixed=w.saves.map fixed
  /-- When the difficulty is written the two are the same. -/
  saves : mark instanceId d w'.saves=mark instanceId d w.saves

theorem Marked.refl (instanceId : ℕ) (d : Difficulty) (w : World) : Marked instanceId d w w :=
  ⟨rfl,rfl,rfl,rfl,rfl⟩

theorem Marked.trans (h : Marked raidId d w w₁) (h' : Marked raidId d w₁ w') :
    Marked raidId d w w' :=
  ⟨h'.groups.trans h.groups,h'.nextPtr.trans h.nextPtr,h'.fault.trans h.fault,
    h'.fixed.trans h.fixed,h'.saves.trans h.saves⟩

/-- The pointers are a part of what stays. -/
theorem Marked.ptrs (h : Marked raidId d w w') :
    w'.saves.map InstanceSave.ptr=w.saves.map InstanceSave.ptr := by
  have hptrs : ∀ l : List InstanceSave, l.map InstanceSave.ptr=(l.map
      InstanceBindModel.fixed).map Prod.fst := fun l => by
    rw [List.map_map]
    rfl
  rw [hptrs,hptrs,h.fixed]

/-- The save of the instance is written through its pointer. -/
theorem Marked.setDifficulty (hptrs : (w.saves.map InstanceSave.ptr).Nodup)
    (hsave : w.save ptr=some save) (hid : save.instanceId=raidId) (d : Difficulty) :
    Marked raidId d w (w.setDifficulty ptr d) := by
  have hmem : save∈w.saves := mem_of_lookup hsave
  refine ⟨rfl,rfl,rfl,?_,?_⟩
  · show (w.saves.map _).map InstanceBindModel.fixed=_
    rw [List.map_map]
    refine List.map_congr_left fun save' _ => ?_
    dsimp only [Function.comp_apply]
    split_ifs <;> rfl
  · show mark raidId d (w.saves.map _)=_
    unfold mark
    rw [List.map_map]
    refine List.map_congr_left fun save' hmem' => ?_
    by_cases hptr : save'.ptr=ptr
    · have hsame : save'=save := List.inj_on_of_nodup_map hptrs hmem' hmem
        (hptr.trans (key_of_lookup hsave).symm)
      subst hsame
      simp only [Function.comp_apply,hptr,if_true,hid]
    · simp only [Function.comp_apply,hptr,if_false]

/-- The entries point to saves that are there. -/
def Live (w : World) (binds : BoundInstancesMap) : Prop :=
  ∀ x∈binds, ∃ ptr, x.2.save=some ptr ∧ ptr∈w.saves.map InstanceSave.ptr

/-- The loop over the binds writes the difficulty of the instance only. -/
theorem setRaidDifficultyLoop_marked (key raidId : ℕ) (d : Difficulty)
    {binds : BoundInstancesMap}
    (hptrs : (w.saves.map InstanceSave.ptr).Nodup) (hlive : Live w binds) :
    ∃ w', setRaidDifficultyLoop key raidId d binds w=some w' ∧ Marked raidId d w w' := by
  induction binds generalizing w with
  | nil => exact ⟨w,rfl,Marked.refl raidId d w⟩
  | cons x binds ih =>
    obtain ⟨ptr,hptr,hmem⟩ := hlive x List.mem_cons_self
    obtain ⟨save,hmem,hname⟩ := List.mem_map.mp hmem
    have hsave : w.save ptr=some save := hname ▸ lookup_of_mem hptrs hmem
    have hrest : Live w binds := fun y hy => hlive y (List.mem_cons_of_mem x hy)
    obtain ⟨k,bind⟩ := x
    dsimp only at hptr
    unfold setRaidDifficultyLoop
    split_ifs
    · rw [hptr]
      dsimp only [Bind.bind,Option.bind]
      rw [hsave]
      dsimp only
      split_ifs with hid
      · have hmarked := Marked.setDifficulty hptrs hsave hid d
        obtain ⟨w',hloop,hmarked'⟩ := ih (hmarked.ptrs ▸ hptrs) fun y hy => by
          obtain ⟨q,hq,hmem'⟩ := hrest y hy
          exact ⟨q,hq,hmarked.ptrs ▸ hmem'⟩
        exact ⟨w',hloop,hmarked.trans hmarked'⟩
      · exact ih hptrs hrest
    · exact ih hptrs hrest

/-- So does the loop over the members. -/
theorem setRaidDifficultyMembers_marked (lfg : Bool) (raidId : ℕ) (d : Difficulty)
    (maps : List ℕ) {binds : BoundInstancesMap} (hptrs : (w.saves.map InstanceSave.ptr).Nodup) (hlive : Live w binds) :
    ∃ w', setRaidDifficultyMembers binds lfg raidId d maps w=some w' ∧
      Marked raidId d w w' := by
  induction maps generalizing w with
  | nil => exact ⟨w,rfl,Marked.refl raidId d w⟩
  | cons mapId maps ih =>
    obtain ⟨w₁,hloop,hmarked⟩ := setRaidDifficultyLoop_marked (createKey mapId lfg) raidId d
      hptrs hlive
    obtain ⟨w',hloop',hmarked'⟩ := ih (hmarked.ptrs ▸ hptrs) fun y hy => by
      obtain ⟨q,hq,hmem'⟩ := hlive y hy
      exact ⟨q,hq,hmarked.ptrs ▸ hmem'⟩
    refine ⟨w',?_,hmarked.trans hmarked'⟩
    unfold setRaidDifficultyMembers
    rw [hloop]
    exact hloop'

/-- `SetRaidDifficulty` writes the difficulty of the group and of the instance. -/
theorem setRaidDifficulty_marked (e : Env) (d : Difficulty) (raidId : ℕ)
    (hg : w.groups g=some group)
    (hptrs : (w.saves.map InstanceSave.ptr).Nodup)
    (hlive : ∀ d, Live w (group.boundInstances d)) :
    ∃ w', w.setRaidDifficulty e g d raidId=some w' ∧
      Marked raidId d (w.putGroup g { group with raidDifficulty := d }) w' := by
  have hbinds : Live (w.putGroup g { group with raidDifficulty := d }) (binds group) :=
    fun x hx => by
      unfold binds at hx
      simp only [List.mem_append] at hx
      rcases hx with ((hx | hx) | hx) | hx
      exacts [hlive 0 x hx,hlive 1 x hx,hlive 2 x hx,hlive 3 x hx]
  obtain ⟨w',hloop,hmarked⟩ := setRaidDifficultyMembers_marked
    (w := w.putGroup g { group with raidDifficulty := d }) group.lfg raidId d e.memberMaps hptrs
    hbinds
  refine ⟨w',?_,hmarked⟩
  unfold World.setRaidDifficulty
  rw [hg]
  exact hloop

/-- No instance has the number zero. -/
theorem Marked.saves_eq (h : Marked 0 d w w') (hsaves : SavesOk w.saves w.nextPtr) :
    w'.saves=w.saves := by
  have hmark : ∀ l : List InstanceSave, (∀ save∈l, save.instanceId≠0) → mark 0 d l=l :=
    fun l hl => by
      unfold mark
      refine (List.map_congr_left fun save hsave => ?_).trans (List.map_id l)
      rw [if_neg (hl save hsave)]
      rfl
  have hsaves' : SavesOk w'.saves w.nextPtr :=
    hsaves.sublist (h.fixed ▸ List.Sublist.refl _)
  rw [← hmark w'.saves hsaves'.nonzero,h.saves,hmark w.saves hsaves.nonzero]

theorem mark_eq_replace (hids : (saves.map InstanceSave.instanceId).Nodup)
    (hptrs : (saves.map InstanceSave.ptr).Nodup) (hmem : save∈saves) (d : Difficulty) :
    mark save.instanceId d saves=replace InstanceSave.ptr { save with difficulty := d } saves := by
  refine List.map_congr_left fun save' hmem' => ?_
  by_cases hid : save'.instanceId=save.instanceId
  · have hsame : save'=save := List.inj_on_of_nodup_map hids hmem' hmem hid
    rw [hsame,if_pos rfl,if_pos rfl]
  · rw [if_neg hid,if_neg fun hptr => hid (congrArg InstanceSave.instanceId
      (List.inj_on_of_nodup_map hptrs hmem' hmem hptr))]

end Marked

section Switch

/-- The tables without the entries that are to be taken away. -/
def masked (T : ℕ → Difficulty×ℕ → Option ℕ) (g : ℕ) (previous : Difficulty) (maps : List ℕ) :
    ℕ → Difficulty×ℕ → Option ℕ :=
  fun g' place => if g'=g ∧ place.1=previous ∧ place.2∈maps then none else T g' place

theorem masked_of_ne {previous d : Difficulty} (T : ℕ → Difficulty×ℕ → Option ℕ) (g key : ℕ)
    (maps : List ℕ) (h : d≠previous) : masked T g previous maps g (d,key)=T g (d,key) :=
  if_neg fun he => h he.2.1

theorem masked_of_notin {key : ℕ} {maps : List ℕ} (T : ℕ → Difficulty×ℕ → Option ℕ) (g : ℕ)
    (d previous : Difficulty) (h : key∉maps) :
    masked T g previous maps g (d,key)=T g (d,key) :=
  if_neg fun he => h he.2.2

/-- One entry more is copied. -/
theorem masked_copy (T : ℕ → Difficulty×ℕ → Option ℕ) (g key : ℕ) (maps : List ℕ) (o : Option ℕ)
    (hne : d≠previous) :
    write (write (masked T g previous maps) g (d,key) o) g (previous,key) none=
      masked (write T g (d,key) o) g previous (maps++[key]) := by
  funext g' place
  by_cases hhere : g'=g ∧ place=(previous,key)
  · rw [hhere.1,hhere.2,write_self]
    exact (if_pos ⟨rfl,rfl,List.mem_append_right _ (List.mem_singleton_self key)⟩).symm
  rw [write_of_ne none hhere]
  by_cases hnew : g'=g ∧ place=(d,key)
  · rw [hnew.1,hnew.2,write_self,masked_of_ne _ g key _ hne,write_self]
  rw [write_of_ne o hnew]
  unfold masked
  rw [write_of_ne o hnew]
  refine if_congr (and_congr_right fun hg => and_congr_right fun hprevious => ?_) rfl rfl
  have hplace : place.2≠key := fun he => hhere ⟨hg,Prod.ext hprevious he⟩
  simp only [List.mem_append,List.mem_singleton,hplace,or_false]

/-- In the middle of a switch: the table that is gone over is as it was, and some of its entries
were copied. -/
structure Switching (w : World) (g : ℕ) (group : Group) (previous : Difficulty)
    (table : BoundInstancesMap) (maps : List ℕ) : Prop where
  /-- The saves agree with the tables without the entries that were copied. -/
  good : Good w (masked (boundOf w.groups) g previous maps)
  here : w.groups g=some group
  kept : group.boundInstances previous=table
  /-- All entries point to saves that are there. -/
  live : ∀ d, Live w (group.boundInstances d)

/-- An entry may be switched: it changes its difficulty, nothing is in its new place, and its
save has no other group. -/
def switchesWell (w : World) (e : Env) (g : ℕ) (group : Group) (previous new : Difficulty)
    (x : ℕ×InstanceGroupBind) : Bool :=
  match x.2.save.bind w.save with
  | none => true
  | some save =>
    save.lfg ||
      match switchesTo e save new with
      | none => true
      | some d =>
        d≠previous && (lookup Prod.fst x.1 (group.boundInstances d)).isNone && save.groupList=[g]

theorem Switching.place {table : BoundInstancesMap} {maps : List ℕ} {x : ℕ×InstanceGroupBind}
    (h : Switching w g group previous table maps) (hx : x∈table) (hmaps : x.1∉maps)
    (hptr : x.2.save=some ptr) :
    masked (boundOf w.groups) g previous maps g (previous,x.1)=some ptr ∧
      lookup Prod.fst x.1 (group.boundInstances previous)=some x ∧
      ∃ save∈w.saves, w.save ptr=some save ∧ save.difficulty=previous ∧ save.key=x.1 := by
  have hlookup : lookup Prod.fst x.1 (group.boundInstances previous)=some x :=
    lookup_of_mem ((h.good.tables g group h.here).keys previous) (h.kept ▸ hx)
  have hentry : masked (boundOf w.groups) g previous maps g (previous,x.1)=some ptr := by
    rw [masked_of_notin _ g previous previous hmaps,boundOf_of_group h.here,hlookup]
    exact hptr
  obtain ⟨save,hmem,hname,hplace,-⟩ := h.good.agree.entry g (previous,x.1) ptr hentry
  have hname : save.ptr=ptr := hname
  have hplace : (save.difficulty,save.key)=(previous,x.1) := hplace
  exact ⟨hentry,hlookup,save,hmem,hname ▸ lookup_of_mem h.good.agree.names hmem,
    (Prod.mk.inj hplace).1,(Prod.mk.inj hplace).2⟩

theorem Switching.processBoundSwitch {table : BoundInstancesMap} {maps : List ℕ}
    {x : ℕ×InstanceGroupBind} (h : Switching w g group previous table maps) (hx : x∈table)
    (hmaps : x.1∉maps) (hptr : x.2.save=some ptr) (hsave : w.save ptr=some save)
    (hlfg : save.lfg=false) (hswitch : switchesTo e save new=some d) (hne : d≠previous)
    (hfree : lookup Prod.fst x.1 (group.boundInstances d)=none) (hone : save.groupList=[g]) :
    ∃ w' group', w.processBoundSwitch e g save previous new=some (w',[save.mapId]) ∧
      save.mapId=x.1 ∧ Switching w' g group' previous table (maps++[x.1]) ∧
      (∀ q≠ptr, w'.save q=w.save q) ∧
      ∀ d key, key≠x.1 → lookup Prod.fst key (group'.boundInstances d)=
        lookup Prod.fst key (group.boundInstances d) := by
  obtain ⟨hentry,hlookup,save',hmem,hsave',hdifficulty,hkey⟩ := h.place hx hmaps hptr
  have hsame : save'=save := Option.some.inj (hsave'.symm.trans hsave)
  subst hsame
  have hmap : save'.mapId=x.1 := by
    rw [← hkey]
    unfold InstanceSave.key
    rw [hlfg,createKey_of_lt (h.good.saves.maps save' hmem)]
  obtain ⟨w₁,hraid,hmarked⟩ := setRaidDifficulty_marked e d save'.instanceId h.here
    h.good.agree.names h.live
  have hgroup₁ : w₁.groups g=some { group with raidDifficulty := d } := by
    rw [hmarked.groups]
    exact Function.update_self g _ w.groups
  have hsaves : (w₁.updateDifficulty save'.instanceId d).saves=
      replace InstanceSave.ptr { save' with difficulty := d } w.saves :=
    hmarked.saves.trans (mark_eq_replace h.good.saves.ids h.good.agree.names hmem d)
  have hptrs : (replace InstanceSave.ptr { save' with difficulty := d } w.saves).map
      InstanceSave.ptr=w.saves.map InstanceSave.ptr := map_key_replace _ w.saves
  let group' := Group.setTable { group with raidDifficulty := d } d
    (assign Prod.fst (x.1,x.2) (group.boundInstances d))
  have hcopy : copyBind { group with raidDifficulty := d } previous d save'.key=group' := by
    unfold copyBind
    dsimp only
    rw [hkey,hlookup]
  have htable : TableOk group' :=
    @TableOk.assign { group with raidDifficulty := d }
      ⟨(h.good.tables g group h.here).keys,(h.good.tables g group h.here).saves⟩ d x.1 x.2
      (hptr ▸ Option.some_ne_none ptr)
  have hbound : boundOf (Function.update w₁.groups g (some group'))=
      write (boundOf w.groups) g (d,x.1) (some ptr) := by
    rw [← hptr,← @boundOf_same _ _ _ { group with raidDifficulty := d } h.here rfl]
    have hmarked₁ : Function.update w.groups g (some { group with raidDifficulty := d })=
        w₁.groups := hmarked.groups.symm
    rw [hmarked₁]
    exact boundOf_assign hgroup₁ x.2
  have hptr' : save'.ptr=ptr := key_of_lookup hsave
  have hself : w.save save'.ptr=some save' := hptr'.symm ▸ hsave
  have hmove : Agree sides (replace InstanceSave.ptr { save' with difficulty := d } w.saves)
      (masked (write (boundOf w.groups) g (d,x.1) (some ptr)) g previous (maps++[x.1])) := by
    have hmoved := @Agree.move _ _ _ _ _ _ _ sides _ _ g save' { save' with difficulty := d }
      hself h.good.agree hone hone
      (fun he => hne ((Prod.mk.inj he).1.trans hdifficulty)) (by
        show masked (boundOf w.groups) g previous maps g (d,save'.key)=none
        rw [hkey,masked_of_ne _ g x.1 maps hne,boundOf_of_group h.here,hfree]
        rfl)
    have hplaces : write (write (masked (boundOf w.groups) g previous maps) g (d,save'.key)
        (some save'.ptr)) g (save'.difficulty,save'.key) none=
        masked (write (boundOf w.groups) g (d,x.1) (some ptr)) g previous (maps++[x.1]) := by
      rw [hdifficulty,hkey,hptr']
      exact masked_copy _ g x.1 maps (some ptr) hne
    exact hplaces ▸ hmoved
  refine ⟨(w₁.updateDifficulty save'.instanceId d).putGroup g group',group',?_,hmap,
    ⟨⟨hmarked.fault.trans h.good.fault,?_,?_,?_⟩,Function.update_self g _ _,?_,?_⟩,
    fun q hq => ?_,fun d' key hne' => ?_⟩
  · unfold World.processBoundSwitch
    rw [hswitch]
    dsimp only [Bind.bind,Option.bind]
    rw [if_pos (hdifficulty ▸ hne.symm),hraid]
    dsimp only
    have hupdated : (w₁.updateDifficulty save'.instanceId d).groups g=
        some { group with raidDifficulty := d } := hgroup₁
    dsimp only [pure]
    rw [hupdated]
    dsimp only
    rw [hcopy]
  · show SavesOk (w₁.updateDifficulty save'.instanceId d).saves w₁.nextPtr
    rw [hsaves,hmarked.nextPtr]
    have hfixed : (replace InstanceSave.ptr { save' with difficulty := d } w.saves).map fixed=
        w.saves.map fixed := fixed_replace h.good.agree.names { save' with difficulty := d } hself rfl
    exact h.good.saves.sublist (hfixed ▸ List.Sublist.refl _)
  · refine tables_update (fun g' group₂ hg' => ?_) htable
    have hg' : w₁.groups g'=some group₂ := hg'
    rw [hmarked.groups] at hg'
    exact @tables_update _ _ h.good.tables { group with raidDifficulty := d }
      ⟨(h.good.tables g group h.here).keys,(h.good.tables g group h.here).saves⟩ g' group₂ hg'
  · show Agree sides (w₁.updateDifficulty save'.instanceId d).saves
      (masked (boundOf (Function.update w₁.groups g (some group'))) g previous (maps++[x.1]))
    rw [hsaves,hbound]
    exact hmove
  · exact (setTable_of_ne _ _ hne.symm).trans h.kept
  · intro d' y hy
    show ∃ q, y.2.save=some q ∧ q∈(w₁.updateDifficulty save'.instanceId d).saves.map
      InstanceSave.ptr
    rw [hsaves,hptrs]
    by_cases hd : d'=d
    · rw [hd,setTable_self] at hy
      rcases mem_of_mem_assign hy with rfl | hy
      · exact ⟨ptr,hptr,hptr' ▸ List.mem_map_of_mem hmem⟩
      · exact h.live d y hy
    · rw [setTable_of_ne _ _ hd] at hy
      exact h.live d' y hy
  · show lookup InstanceSave.ptr q (w₁.updateDifficulty save'.instanceId d).saves=_
    rw [hsaves,lookup_replace,if_neg fun he => hq (he.symm.trans hptr')]
    rfl
  · by_cases hd : d'=d
    · rw [hd,setTable_self,lookup_assign,if_neg hne']
    · rw [setTable_of_ne _ _ hd]

/-- The loop over the entries that are left. -/
theorem Switching.switchLoop {table rest : BoundInstancesMap} {maps : List ℕ}
    (h : Switching w g group previous table maps) (hrest : ∀ x∈rest, x∈table ∧ x.1∉maps)
    (hkeys : (rest.map Prod.fst).Nodup)
    (hwell : ∀ x∈rest, switchesWell w e g group previous new x=true) :
    ∃ w' group' maps', World.switchLoop e g previous new rest w maps=some (w',maps') ∧
      Switching w' g group' previous table maps' := by
  induction rest generalizing w group maps with
  | nil => exact ⟨w,group,maps,rfl,h⟩
  | cons x rest ih =>
    obtain ⟨hx,hmaps⟩ := hrest x List.mem_cons_self
    obtain ⟨hnotin,hkeys'⟩ := List.nodup_cons.mp hkeys
    have hrest' : ∀ y∈rest, y∈table ∧ y.1∉maps := fun y hy =>
      hrest y (List.mem_cons_of_mem x hy)
    have hwell' : ∀ y∈rest, switchesWell w e g group previous new y=true := fun y hy =>
      hwell y (List.mem_cons_of_mem x hy)
    obtain ⟨ptr,hptr,-⟩ := h.live previous x (h.kept ▸ hx)
    obtain ⟨hentry,-,save,-,hsave,-⟩ := h.place hx hmaps hptr
    have hx' := hwell x List.mem_cons_self
    unfold switchesWell at hx'
    rw [hptr] at hx'
    dsimp only [Option.bind] at hx'
    rw [hsave] at hx'
    dsimp only at hx'
    obtain ⟨key,bind⟩ := x
    dsimp only at hptr hx' hmaps hnotin hentry
    unfold World.switchLoop
    rw [hptr]
    dsimp only [Bind.bind,Option.bind]
    rw [hsave]
    dsimp only
    split_ifs with hlfg
    · exact ih h hrest' hkeys' hwell'
    have hlfg := Bool.eq_false_iff.mpr hlfg
    rw [hlfg,Bool.false_or] at hx'
    cases hswitch : switchesTo e save new with
    | none =>
      unfold World.processBoundSwitch
      rw [hswitch]
      dsimp only
      rw [List.append_nil]
      exact ih h hrest' hkeys' hwell'
    | some d =>
      rw [hswitch] at hx'
      simp only [Bool.and_eq_true,decide_eq_true_eq,Option.isNone_iff_eq_none] at hx'
      obtain ⟨w₁,group₁,hprocess,hmap,h₁,hother,hlookup⟩ := h.processBoundSwitch hx hmaps hptr
        hsave hlfg hswitch hx'.1.1 hx'.1.2 hx'.2
      have hkey : ∀ y∈rest, y.1≠key := fun y hy he => hnotin (he ▸ List.mem_map_of_mem hy)
      obtain ⟨w',group',maps',hloop,h'⟩ := ih h₁ (fun y hy => ⟨(hrest' y hy).1,fun hmem => by
          rcases List.mem_append.mp hmem with hmem | hmem
          · exact (hrest' y hy).2 hmem
          · exact hkey y hy (List.mem_singleton.mp hmem)⟩) hkeys' fun y hy => by
        have hsame : y.2.save.bind w₁.save=y.2.save.bind w.save := by
          cases hq : y.2.save with
          | none => rfl
          | some q =>
            refine hother q fun he => hkey y hy ?_
            obtain ⟨hentry',-,-⟩ := h.place (hrest' y hy).1 (hrest' y hy).2 (he ▸ hq)
            exact (Prod.mk.inj (h.good.agree.place_unique hentry' hentry)).2
        have hswitched := hwell' y hy
        unfold switchesWell at hswitched ⊢
        simp only [hsame,hlookup _ _ (hkey y hy)]
        exact hswitched
      rw [hprocess]
      dsimp only
      rw [hmap]
      exact ⟨w',group',maps',hloop,h'⟩

/-- The entries of the maps go. -/
theorem lookup_foldl_remove (maps : List ℕ) (table : BoundInstancesMap) (key : ℕ) :
    lookup Prod.fst key (maps.foldl (fun table mapId => remove Prod.fst mapId table) table)=
      if key∈maps then none else lookup Prod.fst key table := by
  induction maps generalizing table with
  | nil => rfl
  | cons mapId maps ih =>
    rw [List.foldl_cons,ih,lookup_remove]
    by_cases hkey : key∈maps
    · rw [if_pos hkey,if_pos (List.mem_cons_of_mem mapId hkey)]
    · rw [if_neg hkey]
      refine if_congr ?_ rfl rfl
      rw [List.mem_cons,or_iff_left hkey]

/-- What is left of a table is a part of it. -/
theorem foldl_remove_sublist (maps : List ℕ) (table : BoundInstancesMap) :
    (maps.foldl (fun table mapId => remove Prod.fst mapId table) table).Sublist table := by
  induction maps generalizing table with
  | nil => exact List.Sublist.refl table
  | cons mapId maps ih => exact (ih _).trans List.filter_sublist

/-- All entries of a group point to saves that are there. -/
theorem Inv.live (h : Inv w) (hg : w.groups g=some group) (d : Difficulty) :
    Live w (group.boundInstances d) := by
  intro x hx
  have hleft := h.left hg d
  obtain ⟨ptr,hptr⟩ := Option.ne_none_iff_exists'.mp (hleft.saves x hx)
  obtain ⟨save,hmem,hname,-⟩ := h.agree.entry g (d,x.1) ptr ((hleft.entry x hx).trans hptr)
  have hname : save.ptr=ptr := hname
  exact ⟨ptr,hptr,hname ▸ List.mem_map_of_mem hmem⟩

/-- `SetRaidDifficulty` of no instance. -/
theorem Inv.setRaidDifficulty (h : Inv w) (e : Env) (hg : w.groups g=some group)
    (d : Difficulty) : ∃ w', w.setRaidDifficulty e g d 0=some w' ∧ Inv w' := by
  obtain ⟨w',hraid,hmarked⟩ := setRaidDifficulty_marked e d 0 hg h.agree.names (h.live hg)
  have htable := h.tables g group hg
  have hput : Inv (w.putGroup g { group with raidDifficulty := d }) :=
    Good.putGroup h ⟨htable.keys,htable.saves⟩ (boundOf_same hg rfl)
  refine ⟨w',hraid,hmarked.fault.trans h.fault,?_,?_,?_⟩
  · rw [hmarked.saves_eq hput.saves,hmarked.nextPtr]
    exact hput.saves
  · rw [hmarked.groups]
    exact hput.tables
  · rw [hmarked.saves_eq hput.saves,hmarked.groups]
    exact hput.agree

/-- `SwitchBoundInstance`, where its entries may be switched. -/
theorem Inv.switchBoundInstance (h : Inv w) (e : Env) (hg : w.groups g=some group)
    (previous new : Difficulty)
    (hwell : e.leader=true → ∀ x∈group.boundInstances previous,
      switchesWell w e g group previous new x=true) :
    ∃ w', w.switchBoundInstance e g previous new=some w' ∧ Inv w' := by
  unfold World.switchBoundInstance
  rw [hg]
  dsimp only [Bind.bind,Option.bind]
  split_ifs with hleader
  · have hstart : Switching w g group previous (group.boundInstances previous) [] := by
      have hmasked : masked (boundOf w.groups) g previous []=boundOf w.groups := by
        funext g' place
        exact if_neg fun he => List.not_mem_nil he.2.2
      exact ⟨hmasked.symm ▸ h,hg,rfl,h.live hg⟩
    obtain ⟨w₁,group₁,maps,hloop,hend⟩ := @Switching.switchLoop _ _ _ _ _ _ _
      (group.boundInstances previous) _ hstart (fun x hx => ⟨hx,List.not_mem_nil⟩) ((h.tables g group hg).keys previous) (hwell hleader)
    rw [hloop]
    dsimp only
    rw [hend.here]
    dsimp only
    have htable := hend.good.tables g group₁ hend.here
    have hsub := foldl_remove_sublist maps (group₁.boundInstances previous)
    have hbound : boundOf (Function.update w₁.groups g (some (group₁.setTable previous
        (maps.foldl (fun table mapId => remove Prod.fst mapId table)
          (group₁.boundInstances previous)))))=masked (boundOf w₁.groups) g previous maps := by
      funext g' place
      obtain ⟨d,key⟩ := place
      by_cases hg' : g'=g
      · subst hg'
        rw [boundOf_of_group (Function.update_self g' _ _)]
        by_cases hd : d=previous
        · subst hd
          rw [setTable_self,lookup_foldl_remove]
          unfold masked
          rw [boundOf_of_group hend.here]
          by_cases hkey : key∈maps
          · rw [if_pos hkey,if_pos ⟨rfl,rfl,hkey⟩]
            rfl
          · rw [if_neg hkey,if_neg fun he => hkey he.2.2]
        · rw [setTable_of_ne _ _ hd,masked_of_ne _ g' key maps hd,boundOf_of_group hend.here]
      · rw [boundOf_update_of_ne _ hg']
        exact (if_neg fun he => hg' he.1).symm
    have hput : Inv (w₁.putGroup g (group₁.setTable previous
        (maps.foldl (fun table mapId => remove Prod.fst mapId table)
          (group₁.boundInstances previous)))) :=
      hend.good.putGroup (htable.setTable ((htable.keys previous).sublist (hsub.map _))
        fun x hx => htable.saves previous x (hsub.subset hx)) hbound
    exact hput.setRaidDifficulty e (Function.update_self g _ _) new
  · exact h.setRaidDifficulty e hg new

end Switch

end Projectnelth.InstanceBindModel
