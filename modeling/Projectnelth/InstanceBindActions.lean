import Mathlib
import Projectnelth.InstanceBinds

/-!
# What keeps the binds in agreement

Each operation but the switch of a difficulty is followed entry by entry. Where a loop goes
over a table or a list as it was before the loop, the induction says what is left of it.
-/

namespace Projectnelth.InstanceBindModel

open KeyedList TwoSided World

variable {w : World} {T : ℕ → Difficulty×ℕ → Option ℕ} {e : Env} {g ptr : ℕ} {group : Group}
  {save : InstanceSave} {d : Difficulty}

theorem Inv.bindToInstance (h : Inv w) (e : Env) (hg : w.groups g=some group)
    (hsave : w.save ptr=some save) (hlfg : group.lfg=save.lfg) (permanent : Bool) :
    ∃ w', w.bindToInstance e g group save permanent=some w' ∧ Inv w' := by
  have hptr : save.ptr=ptr := key_of_lookup hsave
  have hkey : createKey save.mapId group.lfg=save.key := by rw [hlfg]; rfl
  have hbound := boundOf_of_group hg (save.difficulty,save.key)
  have hgroup := (h.tables g group hg).assign save.difficulty save.key ⟨some save.ptr,permanent⟩
    (Option.some_ne_none _)
  have hwrite := @boundOf_assign _ _ save.key _ save.difficulty hg
    ⟨some save.ptr,permanent⟩
  unfold World.bindToInstance
  split_ifs with hbg
  · exact ⟨w,rfl,h⟩
  dsimp only at hbound hwrite ⊢
  rw [hkey,← hbound]
  by_cases hsame : boundOf w.groups g (save.difficulty,save.key)=some save.ptr
  · rw [if_pos hsame]
    exact ⟨_,rfl,Good.putGroup h hgroup (hwrite.trans (write_eq_self hsame))⟩
  rw [if_neg hsame]
  cases hold : boundOf w.groups g (save.difficulty,save.key) with
  | none =>
    obtain ⟨w₁,hadd,hgood,hgroups⟩ := Good.addGroup h (hptr ▸ hsave) hold
    refine ⟨w₁.putGroup g _,?_,hgood.putGroup hgroup ?_⟩
    · dsimp only
      rw [hadd]
      rfl
    · show boundOf (Function.update w₁.groups g _)=_
      rw [hgroups]
      exact hwrite
  | some ptr₀ =>
    have hne : save.ptr≠ptr₀ := fun he => hsame (he ▸ hold)
    obtain ⟨w₁,-,hremove,-,hgood₁,hgroups₁,hother,-⟩ :=
      Good.removeGroup e false h hold
    have hsave₁ : w₁.save save.ptr=some save := (hother save.ptr hne).trans (hptr ▸ hsave)
    obtain ⟨w₂,hadd,hgood₂,hgroups₂⟩ := hgood₁.addGroup hsave₁ (write_self _ _ _ _)
    refine ⟨w₂.putGroup g _,?_,hgood₂.putGroup hgroup ?_⟩
    · dsimp only
      rw [hremove]
      show (w₁.addGroup save.ptr g >>= _)=_
      rw [hadd]
      rfl
    · show boundOf (Function.update w₂.groups g _)=_
      rw [hgroups₂,hgroups₁,write_write]
      exact hwrite

/-- The group that the tables name is there, with the entry in its table. -/
theorem group_of_boundOf {groups : ℕ → Option Group} {key : ℕ}
    (hentry : boundOf groups g (d,key)=some ptr) :
    ∃ group x, groups g=some group ∧ lookup Prod.fst key (group.boundInstances d)=some x ∧
      x.2.save=some ptr := by
  obtain ⟨group,hg,hlookup⟩ := Option.bind_eq_some_iff.mp hentry
  obtain ⟨x,hx,hsave⟩ := Option.bind_eq_some_iff.mp hlookup
  exact ⟨group,x,hg,hx,hsave⟩

/-- A group gives up an entry that its tables have. -/
theorem Inv.unbindEntry (h : Inv w) (e : Env) (locked : Bool) {mapId : ℕ} {lfg : Bool}
    (hentry : boundOf w.groups g (d,createKey mapId lfg)=some ptr) :
    ∃ w' save, w.unbindInstance e locked g mapId d lfg=some w' ∧ w.save ptr=some save ∧
      Inv w' ∧ (∀ q≠ptr, w'.save q=w.save q) ∧
      (locked=true → w'.save ptr=
        some { save with groupList := save.groupList.filter fun g' => g'≠g }) := by
  obtain ⟨group,x,hg,hx,hptr⟩ := group_of_boundOf hentry
  obtain ⟨w₁,save,hremove,hsave,hgood,hgroups,hother,hlocked⟩ :=
    Good.removeGroup e locked h hentry
  refine ⟨w₁.putGroup g _,save,?_,hsave,
    hgood.putGroup ((h.tables g group hg).remove d (createKey mapId lfg)) ?_,hother,hlocked⟩
  · unfold World.unbindInstance
    rw [hg]
    dsimp only [bind,Option.bind]
    rw [hx]
    dsimp only
    rw [hptr]
    dsimp only
    rw [hremove]
    rfl
  · show boundOf (Function.update w₁.groups g _)=_
    rw [hgroups]
    exact boundOf_remove hg

theorem Inv.unbindInstance (h : Inv w) (e : Env) (hg : w.groups g=some group) (mapId : ℕ)
    (d : Difficulty) (lfg : Bool) :
    ∃ w', w.unbindInstance e false g mapId d lfg=some w' ∧ Inv w' := by
  cases hx : lookup Prod.fst (createKey mapId lfg) (group.boundInstances d) with
  | none =>
    refine ⟨w,?_,h⟩
    unfold World.unbindInstance
    rw [hg]
    dsimp only [bind,Option.bind]
    rw [hx]
  | some x =>
    obtain ⟨ptr,hptr⟩ := Option.ne_none_iff_exists'.mp
      ((h.tables g group hg).saves d x (mem_of_lookup hx))
    have hentry : boundOf w.groups g (d,createKey mapId lfg)=some ptr := by
      rw [boundOf_of_group hg,hx]
      exact hptr
    obtain ⟨w',-,hunbind,-,hinv,-,-⟩ := h.unbindEntry e false hentry
    exact ⟨w',hunbind,hinv⟩

/-- What else of a save changes does not matter. -/
theorem Inv.touch (h : Inv w) (save' : InstanceSave) (hsave : w.save save'.ptr=some save)
    (hfixed : fixed save'=fixed save) (hplace : sides.place save'=sides.place save)
    (howners : save'.groupList=save.groupList) : Inv (w.putSave save') :=
  Good.putSave h save' hsave hfixed
    (@Agree.touch _ _ _ _ _ sides _ _ save save' hsave h.agree hplace howners)

/-- So does the number of its players. -/
theorem Inv.players (h : Inv w) {ptr : ℕ} (hsave : w.save ptr=some save) (players : ℕ) :
    Inv (w.putSave { save with players := players }) := by
  have hptr : save.ptr=ptr := key_of_lookup hsave
  subst hptr
  exact h.touch { save with players := players } hsave rfl rfl rfl

theorem Inv.setCanReset (h : Inv w) (ptr : ℕ) (canReset : Bool) :
    Inv (w.setCanReset ptr canReset) := by
  unfold World.setCanReset
  split
  · exact h
  · next save hsave =>
    have hptr : save.ptr=ptr := key_of_lookup hsave
    subst hptr
    exact h.touch { save with canReset := canReset } hsave rfl rfl rfl

/-- A player comes to a save. -/
theorem Inv.addPlayer (h : Inv w) (ptr : ℕ) : Inv (w.addPlayer ptr) := by
  unfold World.addPlayer
  split
  · exact h
  · rename_i save hsave
    exact h.players hsave _

/-- A player leaves a save, which may unload itself. -/
theorem Inv.removePlayer (h : Inv w) (e : Env) (ptr : ℕ) : Inv (w.removePlayer e ptr) := by
  unfold World.removePlayer
  split
  · exact h
  rename_i save hsave
  have hptr : save.ptr=ptr := key_of_lookup hsave
  have hgood := (Good.unloadIfEmpty e false (h.players hsave (save.players-1))
    (Option.isSome_iff_exists.mpr ⟨save,hptr ▸ hsave⟩))
  show Good _ _
  rw [hgood.2.1]
  exact hgood.1

theorem Inv.addInstanceSave (h : Inv w) (e : Env) (mapId instanceId : ℕ) (d : Difficulty)
    (canReset lfg : Bool) : Inv (w.addInstanceSave e mapId instanceId d canReset lfg) := by
  unfold World.addInstanceSave
  by_cases hid : (w.saves.any fun save => save.instanceId=instanceId)=true
  · rw [if_pos hid]
    exact h
  rw [if_neg hid]
  cases e.mapEntry mapId with
  | none => exact h
  | some isRaid =>
    by_cases hrefused : instanceId=0 ∨
        (if isRaid then MAX_RAID_DIFFICULTY else MAX_DUNGEON_DIFFICULTY) ≤ d.val
    · dsimp only
      rw [if_pos hrefused]
      exact h
    · dsimp only
      rw [if_neg hrefused]
      have hfresh : w.nextPtr∉w.saves.map InstanceSave.ptr := fun hmem => by
        obtain ⟨save,hsave,hptr⟩ := List.mem_map.mp hmem
        exact absurd hptr (h.saves.fresh save hsave).ne
      have hnew : instanceId∉w.saves.map InstanceSave.instanceId := fun hmem => by
        obtain ⟨save,hsave,heq⟩ := List.mem_map.mp hmem
        exact hid (List.any_eq_true.mpr ⟨save,hsave,decide_eq_true heq⟩)
      exact ⟨h.fault,
        h.saves.append ⟨w.nextPtr,instanceId,mapId%65536,d,canReset,lfg,0,[]⟩ hnew
          (fun he => hrefused (Or.inl he)) (Nat.mod_lt mapId (by decide)) rfl,
        h.tables,Agree.fresh (v := sides) h.agree hfresh rfl⟩

/-- A group without binds is made. -/
theorem Inv.newGroup (h : Inv w) (hg : w.groups g=none) (bg lfg : Bool)
    (dungeonDifficulty raidDifficulty : Difficulty) :
    Inv (w.putGroup g ⟨bg,lfg,dungeonDifficulty,raidDifficulty,fun _ => []⟩) := by
  refine Good.putGroup h ⟨fun _ => List.nodup_nil,fun _ => by rintro _ ⟨⟩⟩ ?_
  show boundOf (Function.update w.groups g _)=_
  funext g' place
  by_cases he : g'=g
  · subst he
    rw [boundOf_of_group (Function.update_self g' _ _)]
    unfold boundOf
    rw [hg]
    rfl
  · exact boundOf_update_of_ne _ he place

section Destroyed

/-- A loop over two stretches of binds. -/
theorem removeFromSaves_append (e : Env) (g : ℕ) (l l' : BoundInstancesMap) (w : World) :
    removeFromSaves e g (l++l') w=(removeFromSaves e g l w).bind (removeFromSaves e g l') := by
  induction l generalizing w with
  | nil => rfl
  | cons x l ih =>
    obtain ⟨key,save,perm⟩ := x
    cases save with
    | none => exact ih w
    | some ptr =>
      show (w.removeGroup e false ptr g >>= _)=(w.removeGroup e false ptr g >>= _).bind _
      cases w.removeGroup e false ptr g with
      | none => rfl
      | some w₁ => exact ih w₁

/-- The tables without one of a group. -/
def clear (T : ℕ → Difficulty×ℕ → Option ℕ) (g : ℕ) (d : Difficulty) : ℕ → Difficulty×ℕ → Option ℕ :=
  fun g' place => if g'=g ∧ place.1=d then none else T g' place

/-- The destructor takes the group off the saves of one table. -/
theorem Good.removeFromSaves (e : Env) {rest : BoundInstancesMap} (h : Good w T)
    (hkeys : (rest.map Prod.fst).Nodup) (hsaves : ∀ x∈rest, x.2.save≠none)
    (hT : ∀ key, T g (d,key)=(lookup Prod.fst key rest).bind fun x => x.2.save) :
    ∃ w', World.removeFromSaves e g rest w=some w' ∧ Good w' (clear T g d) ∧
      w'.groups=w.groups := by
  induction rest generalizing w T with
  | nil =>
    have hclear : clear T g d=T := by
      funext g' place
      unfold clear
      by_cases he : g'=g ∧ place.1=d
      · rw [if_pos he,he.1,show place=(d,place.2) from Prod.ext he.2 rfl]
        exact (hT place.2).symm
      · rw [if_neg he]
    exact ⟨w,rfl,hclear.symm ▸ h,rfl⟩
  | cons x rest ih =>
    obtain ⟨ptr,hptr⟩ := Option.ne_none_iff_exists'.mp (hsaves x List.mem_cons_self)
    obtain ⟨hnotin,hkeys⟩ := List.nodup_cons.mp hkeys
    have hskip : ∀ key, x.1≠key → lookup Prod.fst key (x::rest)=lookup Prod.fst key rest :=
      fun key hne => List.find?_cons_of_neg (by simpa using hne)
    have hentry : T g (d,x.1)=some ptr := by
      rw [hT x.1,← hptr]
      unfold lookup
      rw [List.find?_cons_of_pos (by simp)]
      rfl
    obtain ⟨w₁,-,hremove,-,hgood,hgroups,-,-⟩ := h.removeGroup e false hentry
    have hT₁ : ∀ key, write T g (d,x.1) none g (d,key)=
        (lookup Prod.fst key rest).bind fun x => x.2.save := fun key => by
      by_cases hk : x.1=key
      · have hnone : lookup Prod.fst key rest=none := by
          refine List.find?_eq_none.mpr fun y hy => ?_
          rw [decide_eq_true_eq]
          exact fun he => hnotin (hk ▸ he ▸ List.mem_map_of_mem hy)
        rw [← hk,write_self,hk,hnone]
        rfl
      · rw [write_of_ne none fun he => hk (Prod.mk.inj he.2).2.symm,hT key,hskip key hk]
    obtain ⟨w',hrest,hgood',hgroups'⟩ := ih hgood hkeys
      (fun y hy => hsaves y (List.mem_cons_of_mem x hy)) hT₁
    refine ⟨w',?_,?_,hgroups'.trans hgroups⟩
    · obtain ⟨key,bind⟩ := x
      unfold World.removeFromSaves
      dsimp only at hptr ⊢
      rw [hptr]
      dsimp only
      rw [hremove]
      exact hrest
    · have hclear : clear (write T g (d,x.1) none) g d=clear T g d := by
        funext g' place
        unfold clear
        by_cases he : g'=g ∧ place.1=d
        · rw [if_pos he,if_pos he]
        · rw [if_neg he,if_neg he,write_of_ne none fun he' => he ⟨he'.1,congrArg Prod.fst he'.2⟩]
      exact hclear ▸ hgood'

/-- The tables of the first difficulties do not touch those of the others. -/
theorem clear_of_ne (T : ℕ → Difficulty×ℕ → Option ℕ) (g key : ℕ) {d d' : Difficulty} (h : d'≠d) :
    clear T g d g (d',key)=T g (d',key) :=
  if_neg fun he => h he.2

/-- The destructor takes the group off all its saves, where it goes over them. -/
theorem Inv.destroy (h : Inv w) (e : Env) (hg : w.groups g=some group)
    (hguard : (group.boundInstances 0).length≠0 ∨ ∀ d, group.boundInstances d=[]) :
    ∃ w', w.destroy e g=some w' ∧ Inv w' := by
  have htable := h.tables g group hg
  have hT : ∀ d key, boundOf w.groups g (d,key)=
      (lookup Prod.fst key (group.boundInstances d)).bind fun x => x.2.save := fun d key =>
    boundOf_of_group hg (d,key)
  obtain ⟨w₀,hloop₀,hgood₀,hgroups₀⟩ := Good.removeFromSaves (d := 0) e h (htable.keys 0)
    (htable.saves 0) (hT 0)
  obtain ⟨w₁,hloop₁,hgood₁,hgroups₁⟩ := hgood₀.removeFromSaves (d := 1) e (htable.keys 1)
    (htable.saves 1) fun key => (clear_of_ne _ g key (by decide)).trans (hT 1 key)
  obtain ⟨w₂,hloop₂,hgood₂,hgroups₂⟩ := hgood₁.removeFromSaves (d := 2) e (htable.keys 2)
    (htable.saves 2) fun key => (clear_of_ne _ g key (by decide)).trans
      ((clear_of_ne _ g key (by decide)).trans (hT 2 key))
  obtain ⟨w₃,hloop₃,hgood₃,hgroups₃⟩ := hgood₂.removeFromSaves (d := 3) e (htable.keys 3)
    (htable.saves 3) fun key => (clear_of_ne _ g key (by decide)).trans
      ((clear_of_ne _ g key (by decide)).trans
        ((clear_of_ne _ g key (by decide)).trans (hT 3 key)))
  have hgroups : w₃.groups=w.groups :=
    hgroups₃.trans (hgroups₂.trans (hgroups₁.trans hgroups₀))
  have hloop : World.removeFromSaves e g (binds group) w=some w₃ := by
    unfold binds
    rw [removeFromSaves_append,removeFromSaves_append,removeFromSaves_append,hloop₀]
    show ((World.removeFromSaves e g _ w₀).bind _).bind _=_
    rw [hloop₁]
    show (World.removeFromSaves e g _ w₁).bind _=_
    rw [hloop₂]
    exact hloop₃
  refine ⟨{ w₃ with groups := Function.update w₃.groups g none },?_,hgood₃.fault,hgood₃.saves,
    fun g' group' hg' => ?_,?_⟩
  · unfold World.destroy
    rw [hg]
    dsimp only [bind,Option.bind]
    split_ifs with hsize
    · rw [hloop]
      rfl
    have hnil : binds group=[] := by
      unfold binds
      rcases hguard with hguard | hguard
      · exact absurd hguard hsize
      · rw [hguard 0,hguard 1,hguard 2,hguard 3]
        rfl
    rw [hnil] at hloop
    rw [← Option.some.inj hloop]
    rfl
  · have hg' : Function.update w₃.groups g none g'=some group' := hg'
    by_cases he : g'=g
    · rw [he,Function.update_self] at hg'
      cases hg'
    · rw [Function.update_of_ne he] at hg'
      exact hgood₃.tables g' group' hg'
  · have hclear : clear (clear (clear (clear (boundOf w.groups) g 0) g 1) g 2) g 3=
        boundOf (Function.update w₃.groups g none) := by
      funext g' place
      obtain ⟨d,key⟩ := place
      by_cases he : g'=g
      · subst he
        have hnone : boundOf (Function.update w₃.groups g' none) g' (d,key)=none := by
          unfold boundOf
          rw [Function.update_self]
          rfl
        rw [hnone]
        have hd : ∀ d : Difficulty, d=0 ∨ d=1 ∨ d=2 ∨ d=3 := by decide
        unfold clear
        rcases hd d with rfl | rfl | rfl | rfl <;> simp
      · rw [boundOf_update_of_ne none he,hgroups]
        unfold clear
        simp only [he,false_and,if_false]
    exact hclear ▸ hgood₃.agree

end Destroyed

section Reset

/-- `ResetInstances` takes an entry of the table away. -/
def resetsBind (w : World) (e : Env) (method : ResetMethod) (isRaid : Bool) (d : Difficulty)
    (x : ℕ×InstanceGroupBind) : Bool :=
  match x.2.save.bind w.save with
  | none => false
  | some save =>
    match e.mapEntry save.mapId with
    | none => false
    | some entryIsRaid => resets e method isRaid entryIsRaid d save

/-- The loop, which steps over the entry after one that it takes away, ends at the end of the
table. -/
def resetEnds (p : ℕ×InstanceGroupBind → Bool) : BoundInstancesMap → Bool
  | [] => true
  | [x] => !p x
  | x::y::rest => if p x then resetEnds p rest else resetEnds p (y::rest)

/-- Only what is said of the entries of the table counts. -/
theorem resetEnds_congr {p q : ℕ×InstanceGroupBind → Bool} {table : BoundInstancesMap}
    (h : ∀ x∈table, p x=q x) : resetEnds p table=resetEnds q table := by
  induction table using List.twoStepInduction with
  | nil => rfl
  | singleton x =>
    unfold resetEnds
    rw [h x (List.mem_singleton_self x)]
  | cons_cons x y rest ih ih' =>
    unfold resetEnds
    rw [h x List.mem_cons_self,ih fun z hz => h z (List.mem_cons_of_mem x
      (List.mem_cons_of_mem y hz)),ih' y fun z hz => h z (List.mem_cons_of_mem x hz)]

/-- What is left of a table that a loop goes over: the tables of the group still have it. -/
structure Left (w : World) (g : ℕ) (d : Difficulty) (rest : BoundInstancesMap) : Prop where
  keys : (rest.map Prod.fst).Nodup
  entry : ∀ x∈rest, boundOf w.groups g (d,x.1)=x.2.save
  /-- No pointer in it is null. -/
  saves : ∀ x∈rest, x.2.save≠none

theorem Left.tail {x : ℕ×InstanceGroupBind} {rest : BoundInstancesMap}
    (h : Left w g d (x::rest)) : Left w g d rest :=
  ⟨(List.nodup_cons.mp h.keys).2,fun y hy => h.entry y (List.mem_cons_of_mem x hy),
    fun y hy => h.saves y (List.mem_cons_of_mem x hy)⟩

/-- The table of a group is left when nothing of it was gone over. -/
theorem Inv.left (h : Inv w) (hg : w.groups g=some group) (d : Difficulty) :
    Left w g d (group.boundInstances d) := by
  have htable := h.tables g group hg
  refine ⟨htable.keys d,fun x hx => ?_,htable.saves d⟩
  rw [boundOf_of_group hg,lookup_of_mem (htable.keys d) hx]
  rfl

/-- One entry is taken away, and the others stay what they are. -/
theorem Inv.resetEntry (h : Inv w) (e : Env) {x : ℕ×InstanceGroupBind}
    {rest : BoundInstancesMap} (hleft : Left w g d (x::rest)) (hptr : x.2.save=some ptr)
    (hg : w.groups g=some group) :
    ∃ w', (w.putGroup g (group.setTable d (remove Prod.fst x.1 (group.boundInstances d)))
        ).removeGroup e false ptr g=some w' ∧ Inv w' ∧ Left w' g d rest ∧
      w'.groups g≠none ∧
      ∀ y∈rest, y.2.save.bind w'.save=y.2.save.bind w.save := by
  have hentry := (hleft.entry x List.mem_cons_self).trans hptr
  have hput : Good (w.putGroup g
      (group.setTable d (remove Prod.fst x.1 (group.boundInstances d)))) (boundOf w.groups) :=
    Good.putGroup h ((h.tables g group hg).remove d x.1) rfl
  obtain ⟨w₁,-,hremove,-,hgood,hgroups,hother,-⟩ := hput.removeGroup e false hentry
  have hbound : boundOf w₁.groups=write (boundOf w.groups) g (d,x.1) none := by
    rw [hgroups]
    exact boundOf_remove hg
  have hkey : ∀ y∈rest, y.1≠x.1 := fun y hy he =>
    (List.nodup_cons.mp hleft.keys).1 (he ▸ List.mem_map_of_mem hy)
  have hinv : Inv w₁ := by
    show Good w₁ (boundOf w₁.groups)
    rw [hbound]
    exact hgood
  refine ⟨w₁,hremove,hinv,⟨hleft.tail.keys,fun y hy => ?_,hleft.tail.saves⟩,
    fun hnone => ?_,fun y hy => ?_⟩
  · rw [hbound,write_of_ne none fun he => hkey y hy (Prod.mk.inj he.2).2]
    exact hleft.tail.entry y hy
  · rw [hgroups] at hnone
    exact absurd ((Function.update_self g _ w.groups).symm.trans hnone) (Option.some_ne_none _)
  · cases hq : y.2.save with
    | none => rfl
    | some q =>
      refine hother q fun he => hkey y hy ?_
      have hentry' := (hleft.tail.entry y hy).trans hq
      rw [he] at hentry'
      exact (Prod.mk.inj (h.agree.place_unique hentry' hentry)).2

theorem Left.live {x : ℕ×InstanceGroupBind} {rest : BoundInstancesMap}
    (hleft : Left w g d (x::rest)) (h : Inv w) :
    ∃ ptr save, x.2.save=some ptr ∧ w.save ptr=some save := by
  obtain ⟨ptr,hptr⟩ := Option.ne_none_iff_exists'.mp (hleft.saves x List.mem_cons_self)
  obtain ⟨save,hmem,hname,-,-⟩ :=
    h.agree.entry g (d,x.1) ptr ((hleft.entry x List.mem_cons_self).trans hptr)
  have hname : save.ptr=ptr := hname
  exact ⟨ptr,save,hptr,hname ▸ lookup_of_mem h.agree.names hmem⟩

/-- An entry that is not taken away. -/
theorem resetLoop_keep {method : ResetMethod} {isRaid : Bool} {x : ℕ×InstanceGroupBind}
    (hptr : x.2.save=some ptr) (hsave : w.save ptr=some save)
    (hp : resetsBind w e method isRaid d x=false) (rest : BoundInstancesMap) :
    World.resetLoop e method isRaid g d (x::rest) w=
      World.resetLoop e method isRaid g d rest w := by
  obtain ⟨key,bind⟩ := x
  dsimp only at hptr
  unfold resetsBind at hp
  rw [hptr] at hp
  dsimp only [Option.bind] at hp
  rw [hsave] at hp
  dsimp only at hp
  rw [World.resetLoop,hptr]
  dsimp only [Bind.bind,Option.bind]
  rw [hsave]
  dsimp only
  cases hentry : e.mapEntry save.mapId with
  | none => rfl
  | some entryIsRaid =>
    rw [hentry] at hp
    dsimp only at hp ⊢
    rw [if_neg (Bool.eq_false_iff.mp hp)]

/-- An entry that is taken away. -/
theorem resetLoop_reset {method : ResetMethod} {isRaid : Bool} {x : ℕ×InstanceGroupBind}
    {w' : World} (hptr : x.2.save=some ptr) (hsave : w.save ptr=some save)
    (hp : resetsBind w e method isRaid d x=true) (hg : w.groups g=some group)
    (hremove : (w.putGroup g (group.setTable d (remove Prod.fst x.1 (group.boundInstances d)))
      ).removeGroup e false ptr g=some w') (y : ℕ×InstanceGroupBind)
    (rest : BoundInstancesMap) :
    World.resetLoop e method isRaid g d (x::y::rest) w=
      World.resetLoop e method isRaid g d rest w' := by
  obtain ⟨key,bind⟩ := x
  dsimp only at hptr hremove
  unfold resetsBind at hp
  rw [hptr] at hp
  dsimp only [Option.bind] at hp
  rw [hsave] at hp
  dsimp only at hp
  rw [World.resetLoop,hptr]
  dsimp only [Bind.bind,Option.bind]
  rw [hsave]
  dsimp only
  cases hentry : e.mapEntry save.mapId with
  | none =>
    rw [hentry] at hp
    cases hp
  | some entryIsRaid =>
    rw [hentry] at hp
    dsimp only at hp ⊢
    rw [if_pos hp,hg]
    dsimp only
    rw [hremove]

/-- The loop of `ResetInstances`, where it ends. -/
theorem Inv.resetLoop (e : Env) (method : ResetMethod) (isRaid : Bool)
    {rest : BoundInstancesMap} (h : Inv w) (hleft : Left w g d rest) (hg : w.groups g≠none)
    (hends : resetEnds (resetsBind w e method isRaid d) rest=true) :
    ∃ w', World.resetLoop e method isRaid g d rest w=some w' ∧ Inv w' ∧ w'.groups g≠none := by
  -- Two entries go at once where the loop steps over one.
  induction rest using List.twoStepInduction generalizing w with
  | nil => exact ⟨w,rfl,h,hg⟩
  | singleton x =>
    obtain ⟨ptr,save,hptr,hsave⟩ := hleft.live h
    have hp : resetsBind w e method isRaid d x=false := by simpa [resetEnds] using hends
    exact ⟨w,resetLoop_keep hptr hsave hp [],h,hg⟩
  | cons_cons x y rest ih ih' =>
    obtain ⟨ptr,save,hptr,hsave⟩ := hleft.live h
    cases hp : resetsBind w e method isRaid d x with
    | false =>
      have hends' : resetEnds (resetsBind w e method isRaid d) (y::rest)=true := by
        rw [resetEnds,hp] at hends
        exact hends
      obtain ⟨w',hloop,hinv⟩ := ih' y h hleft.tail hg hends'
      exact ⟨w',(resetLoop_keep hptr hsave hp _).trans hloop,hinv⟩
    | true =>
      obtain ⟨group,hgroup⟩ := Option.ne_none_iff_exists'.mp hg
      obtain ⟨w₁,hremove,hinv₁,hleft₁,hg₁,hsame⟩ := h.resetEntry e hleft hptr hgroup
      have hends₁ : resetEnds (resetsBind w₁ e method isRaid d) rest=true := by
        have hcongr : ∀ z∈rest, resetsBind w₁ e method isRaid d z=
            resetsBind w e method isRaid d z := fun z hz => by
          unfold resetsBind
          rw [hsame z (List.mem_cons_of_mem y hz)]
        rw [resetEnds_congr hcongr]
        rw [resetEnds,hp] at hends
        exact hends
      obtain ⟨w',hloop,hinv⟩ := ih hinv₁ hleft₁.tail hg₁ hends₁
      exact ⟨w',(resetLoop_reset hptr hsave hp hgroup hremove y rest).trans hloop,hinv⟩

/-- The saves and the tables after a group lost its entry of a locked save. -/
theorem Inv.unbindGroups (e : Env) {l : List ℕ} (h : Inv w) (hsave : w.save ptr=some save)
    (hl : save.groupList=l) :
    ∃ w' save', World.unbindGroups e save.mapId save.difficulty save.lfg l w=some w' ∧
      Inv w' ∧ w'.save ptr=some save' ∧ save'.groupList=[] ∧ ∀ q≠ptr, w'.save q=w.save q := by
  induction l generalizing w save with
  | nil => exact ⟨w,save,rfl,h,hsave,hl,fun _ _ => rfl⟩
  | cons g l ih =>
    have hmem : save∈w.saves := mem_of_lookup hsave
    have hentry : boundOf w.groups g (save.difficulty,createKey save.mapId save.lfg)=
        some ptr := by
      have hlisted := h.agree.listed save hmem g (by
        show g∈save.groupList
        rw [hl]
        exact List.mem_cons_self)
      exact hlisted.trans (congrArg some (key_of_lookup hsave))
    obtain ⟨w₁,save₁,hunbind,hsave₁,hinv₁,hother,hlocked⟩ := h.unbindEntry e true hentry
    have hsame : save₁=save := Option.some.inj (hsave₁.symm.trans hsave)
    subst hsame
    have hrest : save₁.groupList.filter (fun g' => g'≠g)=l := by
      have honce : (g::l).Nodup := hl ▸ h.agree.once save₁ hmem
      rw [hl,List.filter_cons_of_neg (by simp)]
      exact List.filter_eq_self.mpr fun g' hg' => decide_eq_true fun he =>
        (List.nodup_cons.mp honce).1 (he ▸ hg')
    obtain ⟨w',save',hloop,hinv,hsave',hnil,hother'⟩ := ih hinv₁ (hlocked rfl) hrest
    refine ⟨w',save',?_,hinv,hsave',hnil,fun q hq => (hother' q hq).trans (hother q hq)⟩
    unfold World.unbindGroups
    rw [hunbind]
    exact hloop

theorem Inv.resetSave (h : Inv w) (e : Env) (hsave : w.save ptr=some save) :
    ∃ w', w.resetSave e ptr=some w' ∧ Inv w' ∧ ∀ q≠ptr, w'.save q=w.save q := by
  have hptr : save.ptr=ptr := key_of_lookup hsave
  subst hptr
  have hlocked : (w.putSave { save with players := 0 }).save save.ptr=
      some { save with players := 0 } := by
    rw [save_putSave,if_pos rfl,hsave]
    rfl
  obtain ⟨w₁,save',hloop,hinv,hsave',hnil,hother⟩ :=
    (h.players hsave 0).unbindGroups e hlocked rfl
  refine ⟨{ w₁ with saves := remove InstanceSave.ptr save.ptr w₁.saves },?_,
    ⟨hinv.fault,hinv.saves.sublist (List.filter_sublist.map fixed),hinv.tables,
      Agree.forget (v := sides) hinv.agree hsave' hnil⟩,fun q hq => ?_⟩
  · unfold World.resetSave
    rw [hsave]
    dsimp only [Bind.bind,Option.bind]
    rw [show World.unbindGroups e save.mapId save.difficulty save.lfg save.groupList _=_ from
      hloop]
    rfl
  · refine (lookup_remove q save.ptr w₁.saves).trans ?_
    rw [if_neg hq]
    refine (hother q hq).trans ?_
    rw [save_putSave]
    exact if_neg (Ne.symm hq)

theorem Inv.resetSaves (e : Env) {l : List ℕ} (h : Inv w) (hl : l.Nodup)
    (hlive : ∀ ptr∈l, (w.save ptr).isSome) :
    ∃ w', World.resetSaves e l w=some w' ∧ Inv w' := by
  induction l generalizing w with
  | nil => exact ⟨w,rfl,h⟩
  | cons ptr l ih =>
    obtain ⟨hnotin,hl⟩ := List.nodup_cons.mp hl
    obtain ⟨save,hsave⟩ := Option.isSome_iff_exists.mp (hlive ptr List.mem_cons_self)
    obtain ⟨w₁,hreset,hinv₁,hother⟩ := h.resetSave e hsave
    obtain ⟨w',hloop,hinv⟩ := ih hinv₁ hl fun q hq => by
      rw [hother q fun he => hnotin (he ▸ hq)]
      exact hlive q (List.mem_cons_of_mem ptr hq)
    refine ⟨w',?_,hinv⟩
    unfold World.resetSaves
    rw [hreset]
    exact hloop

theorem Inv.resetInstance (h : Inv w) (e : Env) (mapId instanceId : ℕ) :
    ∃ w', w.resetInstance e mapId instanceId=some w' ∧ Inv w' := by
  unfold World.resetInstance
  split_ifs
  · exact ⟨w,rfl,h⟩
  split
  · exact ⟨w,rfl,h⟩
  rename_i save hfind
  have hsave : w.save save.ptr=some save :=
    lookup_of_mem h.agree.names (List.mem_of_find?_eq_some hfind)
  obtain ⟨w',hreset,hinv,-⟩ := h.resetSave e hsave
  exact ⟨w',hreset,hinv⟩

theorem Inv.resetAll (h : Inv w) (e : Env) (mapId : ℕ) (d : Difficulty) :
    ∃ w', w.resetAll e mapId d=some w' ∧ Inv w' := by
  unfold World.resetAll
  split_ifs
  · exact ⟨w,rfl,h⟩
  refine h.resetSaves e (h.agree.names.sublist (List.filter_sublist.map _))
    fun ptr hptr => ?_
  obtain ⟨save,hsave,rfl⟩ := List.mem_map.mp hptr
  exact Option.isSome_iff_exists.mpr ⟨save,
    lookup_of_mem h.agree.names (List.mem_of_mem_filter hsave)⟩

end Reset

end Projectnelth.InstanceBindModel
