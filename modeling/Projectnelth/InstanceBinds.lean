import Mathlib
import Projectnelth.InstanceBindModel
import Projectnelth.RunInvariant
import Projectnelth.TwoSided

/-!
# Both sides of an instance bind

The tables of the groups and the lists of the saves are the two sides of one relation. The
steps that the operations are made of keep the two in agreement, each for a change of one
entry.
-/

namespace Projectnelth.InstanceBindModel

open KeyedList TwoSided World

/-- What a save is to its groups. -/
def sides : Sides ℕ (Difficulty×ℕ) ℕ InstanceSave where
  name := InstanceSave.ptr
  place save := (save.difficulty,save.key)
  owners := InstanceSave.groupList

/-- What the tables of the groups say. -/
def boundOf (groups : ℕ → Option Group) (g : ℕ) (place : Difficulty×ℕ) : Option ℕ :=
  (groups g).bind fun group =>
    (lookup Prod.fst place.2 (group.boundInstances place.1)).bind fun x => x.2.save

/-- The saves are well made. -/
structure SavesOk (saves : List InstanceSave) (nextPtr : ℕ) : Prop where
  ids : (saves.map InstanceSave.instanceId).Nodup
  nonzero : ∀ save∈saves, save.instanceId≠0
  maps : ∀ save∈saves, save.mapId < 65536
  /-- The pointers were given out. -/
  fresh : ∀ save∈saves, save.ptr < nextPtr

/-- The tables are well made. -/
structure TableOk (group : Group) : Prop where
  /-- A key is in a table once. -/
  keys : ∀ d, ((group.boundInstances d).map Prod.fst).Nodup
  /-- No pointer in a table is null. -/
  saves : ∀ d, ∀ x∈group.boundInstances d, x.2.save≠none

/-- The saves agree with some tables, which in the middle of an action need not be those of the
groups. -/
structure Good (w : World) (T : ℕ → Difficulty×ℕ → Option ℕ) : Prop where
  fault : w.fault=false
  /-- The saves are well made. -/
  saves : SavesOk w.saves w.nextPtr
  tables : ∀ g group, w.groups g=some group → TableOk group
  agree : Agree sides w.saves T

/-- What holds between two actions. -/
def Inv (w : World) : Prop := Good w (boundOf w.groups)

section Tables

variable {groups : ℕ → Option Group} {g key : ℕ} {group : Group} {d : Difficulty}

/-- The table that is written. -/
theorem setTable_self (group : Group) (d : Difficulty) (table : BoundInstancesMap) :
    (group.setTable d table).boundInstances d=table := by
  unfold Group.setTable
  exact Function.update_self d table group.boundInstances

theorem setTable_of_ne (group : Group) {d d' : Difficulty} (table : BoundInstancesMap)
    (h : d'≠d) : (group.setTable d table).boundInstances d'=group.boundInstances d' := by
  unfold Group.setTable
  exact Function.update_of_ne h table group.boundInstances

theorem boundOf_of_group (hg : groups g=some group) (place : Difficulty×ℕ) :
    boundOf groups g place=
      (lookup Prod.fst place.2 (group.boundInstances place.1)).bind fun x => x.2.save := by
  unfold boundOf
  rw [hg]
  rfl

/-- A group that is written does not change the others. -/
theorem boundOf_update_of_ne {g' : ℕ} (group' : Option Group) (h : g'≠g)
    (place : Difficulty×ℕ) :
    boundOf (Function.update groups g group') g' place=boundOf groups g' place := by
  unfold boundOf
  rw [Function.update_of_ne h]

theorem boundOf_setTable (hg : groups g=some group) (table : BoundInstancesMap)
    {o : Option ℕ}
    (ho : ∀ k, (lookup Prod.fst k table).bind (fun x => x.2.save)=
      if k=key then o
      else (lookup Prod.fst k (group.boundInstances d)).bind fun x => x.2.save) :
    boundOf (Function.update groups g (some (group.setTable d table)))=
      write (boundOf groups) g (d,key) o := by
  funext g' place
  obtain ⟨d',k⟩ := place
  by_cases hg' : g'=g
  · subst hg'
    rw [boundOf_of_group (Function.update_self g' _ _)]
    by_cases hd : d'=d
    · subst hd
      by_cases hk : k=key
      · subst hk
        rw [write_self,setTable_self,ho k,if_pos rfl]
      · rw [write_of_ne o fun he => hk (Prod.mk.inj he.2).2,setTable_self,ho k,if_neg hk,
          boundOf_of_group hg]
    · rw [write_of_ne o fun he => hd (Prod.mk.inj he.2).1,setTable_of_ne group table hd,
        boundOf_of_group hg]
  · rw [write_of_ne o fun he => hg' he.1,boundOf_update_of_ne _ hg']

/-- An entry is taken away. -/
theorem boundOf_remove (hg : groups g=some group) :
    boundOf (Function.update groups g
      (some (group.setTable d (remove Prod.fst key (group.boundInstances d)))))=
      write (boundOf groups) g (d,key) none := by
  refine boundOf_setTable hg _ fun k => ?_
  rw [lookup_remove]
  split_ifs <;> rfl

theorem boundOf_assign (hg : groups g=some group) (bind : InstanceGroupBind) :
    boundOf (Function.update groups g
      (some (group.setTable d (assign Prod.fst (key,bind) (group.boundInstances d)))))=
      write (boundOf groups) g (d,key) bind.save := by
  refine boundOf_setTable hg _ fun k => ?_
  rw [lookup_assign]
  split_ifs <;> rfl

/-- What else of a group changes does not matter. -/
theorem boundOf_same {group' : Group} (hg : groups g=some group)
    (h : group'.boundInstances=group.boundInstances) :
    boundOf (Function.update groups g (some group'))=boundOf groups := by
  funext g' place
  by_cases hg' : g'=g
  · subst hg'
    rw [boundOf_of_group (Function.update_self g' _ _),boundOf_of_group hg,h]
  · rw [boundOf_update_of_ne _ hg']

theorem TableOk.setTable (h : TableOk group) {table : BoundInstancesMap}
    (hkeys : (table.map Prod.fst).Nodup) (hsaves : ∀ x∈table, x.2.save≠none) :
    TableOk (group.setTable d table) := by
  refine ⟨fun d' => ?_,fun d' x hx => ?_⟩
  · by_cases hd : d'=d
    · rw [hd,setTable_self]
      exact hkeys
    · rw [setTable_of_ne group table hd]
      exact h.keys d'
  · by_cases hd : d'=d
    · rw [hd,setTable_self] at hx
      exact hsaves x hx
    · rw [setTable_of_ne group table hd] at hx
      exact h.saves d' x hx

/-- A table without an entry is well made. -/
theorem TableOk.remove (h : TableOk group) (d : Difficulty) (key : ℕ) :
    TableOk (group.setTable d (KeyedList.remove Prod.fst key (group.boundInstances d))) :=
  h.setTable (nodup_remove (h.keys d) key) fun x hx => h.saves d x (mem_remove.mp hx).1

/-- So is one with an entry that is not null. -/
theorem TableOk.assign (h : TableOk group) (d : Difficulty) (key : ℕ) (bind : InstanceGroupBind)
    (hbind : bind.save≠none) :
    TableOk (group.setTable d
      (KeyedList.assign Prod.fst (key,bind) (group.boundInstances d))) := by
  refine h.setTable (nodup_assign (h.keys d) _) fun x hx => ?_
  rcases mem_of_mem_assign hx with rfl | hx
  · exact hbind
  · exact h.saves d x hx

/-- The groups are well made when one of them is written. -/
theorem tables_update (h : ∀ g group, groups g=some group → TableOk group) {group' : Group}
    (hgroup : TableOk group') :
    ∀ g' group, Function.update groups g (some group') g'=some group → TableOk group := by
  intro g' group₁ hg'
  by_cases he : g'=g
  · subst he
    rw [Function.update_self] at hg'
    rw [← Option.some.inj hg']
    exact hgroup
  · rw [Function.update_of_ne he] at hg'
    exact h g' group₁ hg'

end Tables

section Saves

variable {saves saves' : List InstanceSave} {nextPtr : ℕ} {w : World} {T : ℕ → Difficulty×ℕ → Option ℕ}

/-- What of a save stays. -/
def fixed (save : InstanceSave) : ℕ×ℕ×ℕ := (save.ptr,save.instanceId,save.mapId)

/-- Saves that stay well made: what of them stays is a part of what it was. -/
theorem SavesOk.sublist (h : SavesOk saves nextPtr)
    (hsub : (saves'.map fixed).Sublist (saves.map fixed)) : SavesOk saves' nextPtr := by
  have hback : ∀ save'∈saves', ∃ save∈saves, fixed save=fixed save' := fun save' hmem =>
    List.mem_map.mp (hsub.subset (List.mem_map_of_mem hmem))
  refine ⟨?_,fun save' hmem => ?_,fun save' hmem => ?_,fun save' hmem => ?_⟩
  · have hids : ∀ l : List InstanceSave,
        l.map InstanceSave.instanceId=(l.map fixed).map fun x => x.2.1 := fun l => by
      rw [List.map_map]
      rfl
    rw [hids]
    have hnodup := h.ids
    rw [hids] at hnodup
    exact hnodup.sublist (hsub.map _)
  · obtain ⟨save,hsave,he⟩ := hback save' hmem
    have hid : save.instanceId=save'.instanceId := congrArg (fun x => x.2.1) he
    exact hid ▸ h.nonzero save hsave
  · obtain ⟨save,hsave,he⟩ := hback save' hmem
    have hmap : save.mapId=save'.mapId := congrArg (fun x => x.2.2) he
    exact hmap ▸ h.maps save hsave
  · obtain ⟨save,hsave,he⟩ := hback save' hmem
    have hptr : save.ptr=save'.ptr := congrArg Prod.fst he
    exact hptr ▸ h.fresh save hsave

/-- A save of a new instance, under the next pointer. -/
theorem SavesOk.append (h : SavesOk saves nextPtr) (save : InstanceSave)
    (hnew : save.instanceId∉saves.map InstanceSave.instanceId) (hnonzero : save.instanceId≠0)
    (hmap : save.mapId < 65536) (hptr : save.ptr=nextPtr) :
    SavesOk (saves++[save]) (nextPtr+1) := by
  refine ⟨?_,fun save' hmem => ?_,fun save' hmem => ?_,fun save' hmem => ?_⟩
  · rw [List.map_append]
    exact List.nodup_append.mpr ⟨h.ids,List.nodup_singleton _,fun x hx y hy he =>
      hnew (by rwa [he,List.mem_singleton.mp hy] at hx)⟩
  · rcases List.mem_append.mp hmem with hmem | hmem
    · exact h.nonzero save' hmem
    · exact List.mem_singleton.mp hmem ▸ hnonzero
  · rcases List.mem_append.mp hmem with hmem | hmem
    · exact h.maps save' hmem
    · exact List.mem_singleton.mp hmem ▸ hmap
  · rcases List.mem_append.mp hmem with hmem | hmem
    · exact (h.fresh save' hmem).trans (Nat.lt_succ_self nextPtr)
    · rw [List.mem_singleton.mp hmem,hptr]
      exact Nat.lt_succ_self nextPtr

/-- A save that is written keeps what stays. -/
theorem fixed_replace (hptrs : (saves.map InstanceSave.ptr).Nodup) {save : InstanceSave}
    (save' : InstanceSave) (hsave : lookup InstanceSave.ptr save'.ptr saves=some save) (he : fixed save'=fixed save) :
    (replace InstanceSave.ptr save' saves).map fixed=saves.map fixed :=
  map_replace fixed hptrs hsave he

theorem Good.putSave {T' : ℕ → Difficulty×ℕ → Option ℕ} {save : InstanceSave} (h : Good w T)
    (save' : InstanceSave) (hsave : w.save save'.ptr=some save) (hfixed : fixed save'=fixed save)
    (hagree : Agree sides (replace InstanceSave.ptr save' w.saves) T') :
    Good (w.putSave save') T' :=
  ⟨h.fault,h.saves.sublist (fixed_replace h.agree.names save' hsave hfixed ▸ List.Sublist.refl _),
    h.tables,hagree⟩

/-- The saves when one of them is written. -/
theorem save_putSave (w : World) (save' : InstanceSave) (ptr : ℕ) :
    (w.putSave save').save ptr=
      if save'.ptr=ptr then (w.save ptr).map fun _ => save' else w.save ptr :=
  lookup_replace save' ptr w.saves

/-- What a save that may unload itself leaves. -/
theorem Good.unloadIfEmpty (e : Env) (locked : Bool) {save' : InstanceSave}
    (h : Good (w.putSave save') T) (hsave : (w.save save'.ptr).isSome) :
    Good (w.unloadIfEmpty e locked save') T ∧
      (w.unloadIfEmpty e locked save').groups=w.groups ∧
      (∀ ptr≠save'.ptr, (w.unloadIfEmpty e locked save').save ptr=w.save ptr) ∧
      (locked=true → (w.unloadIfEmpty e locked save').save save'.ptr=some save') := by
  have hself : (w.putSave save').save save'.ptr=some save' := by
    obtain ⟨save,hsave⟩ := Option.isSome_iff_exists.mp hsave
    rw [save_putSave,if_pos rfl,hsave]
    rfl
  unfold World.unloadIfEmpty
  split_ifs with hempty
  · refine ⟨⟨h.fault,?_,h.tables,?_⟩,rfl,fun ptr hne => ?_,fun hlocked => ?_⟩
    · have hsub : (remove InstanceSave.ptr save'.ptr (w.putSave save').saves).Sublist
          (w.putSave save').saves := List.filter_sublist
      have hsaves := h.saves.sublist (hsub.map fixed)
      unfold World.putSave at hsaves
      rw [remove_replace] at hsaves
      exact hsaves
    · have hforget : Agree sides (remove InstanceSave.ptr save'.ptr (w.putSave save').saves) T :=
        h.agree.forget (v := sides) hself hempty.2.1
      unfold World.putSave at hforget
      rw [remove_replace] at hforget
      exact hforget
    · exact (lookup_remove ptr save'.ptr w.saves).trans (if_neg hne)
    · rw [hlocked] at hempty
      exact absurd hempty.2.2.2 (by decide)
  · refine ⟨h,rfl,fun ptr hne => ?_,fun _ => hself⟩
    rw [save_putSave,if_neg (Ne.symm hne)]

/-- A group leaves a save that its table names. -/
theorem Good.removeGroup (e : Env) (locked : Bool) {g ptr : ℕ} {place : Difficulty×ℕ}
    (h : Good w T) (hentry : T g place=some ptr) :
    ∃ w' save, w.removeGroup e locked ptr g=some w' ∧ w.save ptr=some save ∧
      Good w' (write T g place none) ∧ w'.groups=w.groups ∧
      (∀ q≠ptr, w'.save q=w.save q) ∧
      (locked=true → w'.save ptr=
        some { save with groupList := save.groupList.filter fun g' => g'≠g }) := by
  obtain ⟨save,hmem,hname,-,-⟩ := h.agree.entry g place ptr hentry
  have hptr : save.ptr=ptr := hname
  subst hptr
  have hsave : w.save save.ptr=some save := lookup_of_mem h.agree.names hmem
  refine ⟨_,save,by rw [World.removeGroup,hsave]; rfl,hsave,?_⟩
  have hdrop : Agree sides (replace InstanceSave.ptr
      { save with groupList := save.groupList.filter fun g' => g'≠g } w.saves)
      (write T g place none) :=
    @Agree.drop _ _ _ _ _ _ _ sides _ _ _ _ save
      { save with groupList := save.groupList.filter fun g' => g'≠g } hsave h.agree
      hentry rfl rfl
  have hgood : Good (w.putSave
      { save with groupList := save.groupList.filter fun g' => g'≠g }) (write T g place none) :=
    h.putSave _ hsave rfl hdrop
  exact hgood.unloadIfEmpty e locked (Option.isSome_iff_exists.mpr ⟨save,hsave⟩)

/-- A group joins a save, under the place of the save. -/
theorem Good.addGroup {g ptr : ℕ} {save : InstanceSave} (h : Good w T)
    (hsave : w.save ptr=some save) (hfree : T g (save.difficulty,save.key)=none) :
    ∃ w', w.addGroup ptr g=some w' ∧
      Good w' (write T g (save.difficulty,save.key) (some ptr)) ∧ w'.groups=w.groups := by
  have hptr : save.ptr=ptr := key_of_lookup hsave
  subst hptr
  refine ⟨w.putSave { save with groupList := save.groupList++[g] },
    by rw [World.addGroup,hsave]; rfl,?_,rfl⟩
  have hjoin : Agree sides (replace InstanceSave.ptr
      { save with groupList := save.groupList++[g] } w.saves)
      (write T g (save.difficulty,save.key) (some save.ptr)) :=
    @Agree.join _ _ _ _ _ _ _ sides _ _ _ save
      { save with groupList := save.groupList++[g] } hsave h.agree hfree rfl rfl
  exact h.putSave { save with groupList := save.groupList++[g] } hsave rfl hjoin

theorem Good.putGroup {T' : ℕ → Difficulty×ℕ → Option ℕ} {g : ℕ} {group : Group} (h : Good w T)
    (hgroup : TableOk group) (hT : T'=T) : Good (w.putGroup g group) T' :=
  ⟨h.fault,h.saves,tables_update h.tables hgroup,hT ▸ h.agree⟩

end Saves

end Projectnelth.InstanceBindModel
