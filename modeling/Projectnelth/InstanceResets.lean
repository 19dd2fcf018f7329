import Mathlib
import Projectnelth.InstanceBindActions

/-!
# What a reset of the instances leaves

`ResetInstances` goes over the table of one difficulty, and after each bind that it takes away it
steps over the next one. So it takes all binds that are to go exactly if none of these is last or
directly before another one, and if it starts at all, which depends on the table of the first
difficulty. A save that is bound under two keys would be told twice.
-/

namespace Projectnelth.InstanceBindModel

open KeyedList World

section Walk

variable {p q : ℕ×InstanceGroupBind → Bool} {table gone : BoundInstancesMap}

/-- The entries that the loop takes, which steps over the entry after each of them; none where it
steps over the end. -/
def taken (p : ℕ×InstanceGroupBind → Bool) : BoundInstancesMap → Option BoundInstancesMap
  | [] => some []
  | [x] => if p x then none else some []
  | x::y::rest => if p x then (taken p rest).map (x::·) else taken p (y::rest)

/-- No entry that is to go is last or directly before another one. -/
def spaced (p : ℕ×InstanceGroupBind → Bool) : BoundInstancesMap → Bool
  | [] => true
  | [x] => !p x
  | x::y::rest => if p x then !p y && spaced p rest else spaced p (y::rest)

theorem taken_congr (h : ∀ x∈table,p x=q x) : taken p table=taken q table := by
  induction table using List.twoStepInduction with
  | nil => rfl
  | singleton x =>
    unfold taken
    rw [h x (List.mem_singleton_self x)]
  | cons_cons x y rest ih ih' =>
    unfold taken
    rw [h x List.mem_cons_self,ih fun z hz => h z (List.mem_cons_of_mem x
      (List.mem_cons_of_mem y hz)),ih' y fun z hz => h z (List.mem_cons_of_mem x hz)]

theorem sublist_of_taken (h : taken p table=some gone) : gone.Sublist (table.filter p) := by
  induction table using List.twoStepInduction generalizing gone with
  | nil =>
    cases h
    exact List.Sublist.refl []
  | singleton x =>
    unfold taken at h
    split_ifs at h
    cases h
    exact List.nil_sublist _
  | cons_cons x y rest ih ih' =>
    unfold taken at h
    split_ifs at h with hx
    · obtain ⟨gone',hgone',rfl⟩ := Option.map_eq_some_iff.mp h
      rw [List.filter_cons_of_pos hx]
      exact ((ih hgone').trans ((List.sublist_cons_self y rest).filter p)).cons_cons x
    · rw [List.filter_cons_of_neg hx]
      exact ih' y h

/-- Where nothing is to go nothing is taken. -/
theorem taken_nil (h : ∀ x∈table,p x=false) : taken p table=some [] := by
  induction table with
  | nil => rfl
  | cons x rest ih =>
    have hx : ¬p x=true := by
      rw [h x List.mem_cons_self]
      exact Bool.false_ne_true
    cases rest with
    | nil =>
      unfold taken
      rw [if_neg hx]
    | cons y rest =>
      unfold taken
      rw [if_neg hx]
      exact ih fun z hz => h z (List.mem_cons_of_mem x hz)

/-- All entries that are to go are taken exactly if they are spaced. -/
theorem taken_eq_filter_iff : taken p table=some (table.filter p) ↔ spaced p table=true := by
  induction table using List.twoStepInduction with
  | nil => exact iff_of_true rfl rfl
  | singleton x =>
    unfold taken spaced
    cases hx : p x with
    | true => simp
    | false => simp [hx]
  | cons_cons x y rest ih ih' =>
    unfold taken spaced
    cases hx : p x with
    | true =>
      rw [if_pos rfl,if_pos rfl,List.filter_cons_of_pos hx,Option.map_eq_some_iff]
      cases hy : p y with
      | true =>
        rw [List.filter_cons_of_pos hy]
        refine iff_of_false ?_ (by simp)
        rintro ⟨gone,hgone,heq⟩
        have hle := (sublist_of_taken hgone).length_le
        rw [(List.cons.inj heq).2,List.length_cons] at hle
        omega
      | false =>
        rw [List.filter_cons_of_neg (by rw [hy]; exact Bool.false_ne_true),Bool.not_false,
          Bool.true_and,← ih]
        constructor
        · rintro ⟨gone,hgone,heq⟩
          rw [hgone,(List.cons.inj heq).2]
        · exact fun h => ⟨_,h,rfl⟩
    | false =>
      rw [if_neg Bool.false_ne_true,if_neg Bool.false_ne_true,
        List.filter_cons_of_neg (by rw [hx]; exact Bool.false_ne_true)]
      exact ih' y

end Walk

/-- Each of some saves is told to forget the group. -/
def World.forgetAll (e : Env) (g : ℕ) : List ℕ → World → Option World
  | [],w => some w
  | ptr::ptrs,w => do
    let w←w.removeGroup e false ptr g
    forgetAll e g ptrs w

/-- A table of binds: a key has one entry, and the pointers are null or there. -/
structure BoundTable (w : World) (table : BoundInstancesMap) : Prop where
  keys : (table.map Prod.fst).Nodup
  /-- The pointers are null or there. -/
  live : ∀ x∈table,∀ ptr,x.2.save=some ptr → w.save ptr≠none

variable {w w' : World} {e : Env} {g ptr : ℕ} {group : Group} {method : ResetMethod}
variable {isRaid : Bool} {d : Difficulty} {x : ℕ×InstanceGroupBind} {rest : BoundInstancesMap}

/-- The call changes one save only. -/
theorem removeGroup_kept (h : w.removeGroup e false ptr g=some w') :
    w'.groups=w.groups ∧ ∀ other≠ptr,w'.save other=w.save other := by
  obtain ⟨save,hsave,hw'⟩ := Option.bind_eq_some_iff.mp h
  obtain rfl := Option.some.inj hw'
  have hname : save.ptr=ptr := key_of_lookup hsave
  unfold World.unloadIfEmpty
  split_ifs
  · refine ⟨rfl,fun other hne => ?_⟩
    show lookup InstanceSave.ptr other (remove InstanceSave.ptr save.ptr w.saves)=_
    rw [lookup_remove,if_neg (by rw [hname]; exact hne)]
    rfl
  · refine ⟨rfl,fun other hne => ?_⟩
    show lookup InstanceSave.ptr other (replace InstanceSave.ptr _ w.saves)=_
    rw [lookup_replace,if_neg (by rw [hname]; exact hne.symm)]
    rfl

theorem exists_removeGroup (e : Env) (g : ℕ) (h : w.save ptr≠none) :
    ∃ w',w.removeGroup e false ptr g=some w' := by
  obtain ⟨save,hsave⟩ := Option.ne_none_iff_exists'.mp h
  unfold World.removeGroup
  rw [hsave]
  exact ⟨_,rfl⟩

/-- Writing the group and telling a save do not meet. -/
theorem removeGroup_putGroup (w : World) (e : Env) (ptr g : ℕ) (group : Group) :
    (w.putGroup g group).removeGroup e false ptr g=
      (w.removeGroup e false ptr g).map fun w' => w'.putGroup g group := by
  unfold World.removeGroup
  show (w.save ptr >>= _)=_
  cases w.save ptr with
  | none => rfl
  | some save =>
    refine congrArg some ?_
    unfold World.unloadIfEmpty
    split_ifs <;> rfl

theorem forgetAll_putGroup (e : Env) (g : ℕ) (group : Group) (ptrs : List ℕ) (w : World) :
    World.forgetAll e g ptrs (w.putGroup g group)=
      (World.forgetAll e g ptrs w).map fun w' => w'.putGroup g group := by
  induction ptrs generalizing w with
  | nil => rfl
  | cons ptr ptrs ih =>
    unfold World.forgetAll
    rw [removeGroup_putGroup]
    cases w.removeGroup e false ptr g with
    | none => rfl
    | some w' => exact ih w'

theorem putGroup_putGroup (w : World) (g : ℕ) (group group' : Group) :
    (w.putGroup g group).putGroup g group'=w.putGroup g group' := by
  unfold World.putGroup
  rw [Function.update_idem]

theorem putGroup_self (hg : w.groups g=some group) : w.putGroup g group=w := by
  unfold World.putGroup
  rw [← hg,Function.update_eq_self]

theorem table_putGroup (w : World) (g : ℕ) (group : Group) (d : Difficulty)
    (table : BoundInstancesMap) :
    ((w.putGroup g (group.setTable d table)).groups g).map (fun group => group.boundInstances d)=
      some table := by
  show (Function.update w.groups g (some _) g).map _=_
  rw [Function.update_self,Option.map_some,setTable_self]

/-- When nothing is taken, nothing changes. -/
theorem putGroup_taken_nil (hg : w.groups g=some group) (d : Difficulty) :
    w.putGroup g (group.setTable d ((group.boundInstances d).filter
      fun x => x.1∉([] : BoundInstancesMap).map Prod.fst))=w := by
  have htable : group.setTable d (group.boundInstances d)=group := by
    unfold Group.setTable
    rw [Function.update_eq_self]
  rw [List.filter_eq_self.mpr fun x _ => by simp,htable,putGroup_self hg]

theorem resetLoop_stay (hlive : ∀ ptr,x.2.save=some ptr → w.save ptr≠none)
    (hp : resetsBind w e method isRaid d x=false) (rest : BoundInstancesMap) :
    World.resetLoop e method isRaid g d (x::rest) w=
      World.resetLoop e method isRaid g d rest w := by
  cases hptr : x.2.save with
  | none =>
    obtain ⟨key,bind⟩ := x
    rw [World.resetLoop,show bind.save=none from hptr]
  | some ptr =>
    obtain ⟨save,hsave⟩ := Option.ne_none_iff_exists'.mp (hlive ptr hptr)
    exact resetLoop_keep hptr hsave hp rest

/-- An entry that is to go has a save. -/
theorem save_of_resetsBind (hp : resetsBind w e method isRaid d x=true) :
    ∃ ptr save,x.2.save=some ptr ∧ w.save ptr=some save := by
  unfold resetsBind at hp
  cases hptr : x.2.save with
  | none =>
    rw [hptr] at hp
    cases hp
  | some ptr =>
    cases hsave : w.save ptr with
    | none =>
      rw [hptr,Option.bind_some,hsave] at hp
      cases hp
    | some save => exact ⟨ptr,save,rfl,hsave⟩

/-- The last entry, when it is to go. -/
theorem resetLoop_last (hp : resetsBind w e method isRaid d x=true)
    (hg : w.groups g=some group) : World.resetLoop e method isRaid g d [x] w=none := by
  obtain ⟨ptr,save,hptr,hsave⟩ := save_of_resetsBind hp
  obtain ⟨key,bind⟩ := x
  dsimp only at hptr
  unfold resetsBind at hp
  rw [hptr,Option.bind_some,hsave] at hp
  rw [World.resetLoop,hptr]
  dsimp only [Bind.bind,Option.bind] at hp ⊢
  rw [hsave]
  dsimp only
  cases hentry : e.mapEntry save.mapId with
  | none =>
    rw [hentry] at hp
    cases hp
  | some entryIsRaid =>
    rw [hentry] at hp
    dsimp only at hp ⊢
    rw [if_pos hp,hg]
    dsimp only
    split <;> rfl

/-- What the loop does, when no save is bound twice among the entries that are to go: it takes away
those that it reaches, or steps over the end; by induction on the entries that are left. -/
theorem resetLoop_eq (e : Env) (method : ResetMethod) (isRaid : Bool) (d : Difficulty)
    (hg : w.groups g=some group)
    (hlive : ∀ x∈rest,∀ ptr,x.2.save=some ptr → w.save ptr≠none)
    (hdistinct :
      ((rest.filter (resetsBind w e method isRaid d)).map fun x => x.2.save).Nodup) :
    World.resetLoop e method isRaid g d rest w=
      (taken (resetsBind w e method isRaid d) rest).bind fun gone =>
        (World.forgetAll e g (gone.filterMap fun x => x.2.save) w).map fun w' =>
          w'.putGroup g (group.setTable d
            ((group.boundInstances d).filter fun x => x.1∉gone.map Prod.fst)) := by
  induction rest using List.twoStepInduction generalizing w group with
  | nil =>
    rw [taken,Option.bind_some]
    exact congrArg some (putGroup_taken_nil hg d).symm
  | singleton x =>
    rw [taken]
    cases hp : resetsBind w e method isRaid d x with
    | true =>
      rw [if_pos rfl]
      exact resetLoop_last hp hg
    | false =>
      rw [if_neg Bool.false_ne_true,resetLoop_stay (hlive x List.mem_cons_self) hp]
      exact congrArg some (putGroup_taken_nil hg d).symm
  | cons_cons x y rest ih ih' =>
    rw [taken]
    cases hp : resetsBind w e method isRaid d x with
    | false =>
      rw [if_neg Bool.false_ne_true,resetLoop_stay (hlive x List.mem_cons_self) hp]
      rw [List.filter_cons_of_neg (by rw [hp]; exact Bool.false_ne_true)] at hdistinct
      exact ih' y hg (fun z hz => hlive z (List.mem_cons_of_mem x hz)) hdistinct
    | true =>
      obtain ⟨ptr,save,hptr,hsave⟩ := save_of_resetsBind hp
      rw [List.filter_cons_of_pos hp,List.map_cons,List.nodup_cons,hptr] at hdistinct
      -- no entry that is left is bound to the same save
      have hother : ∀ z∈y::rest,z.2.save≠some ptr := by
        intro z hz heq
        refine hdistinct.1 (List.mem_map.mpr ⟨z,List.mem_filter.mpr ⟨hz,?_⟩,heq⟩)
        rw [← hp]
        unfold resetsBind
        rw [heq,hptr]
      obtain ⟨w₁,hw₁⟩ := exists_removeGroup e g (hsave ▸ Option.some_ne_none save)
      obtain ⟨hgroups,hsaves⟩ := removeGroup_kept hw₁
      let left := group.setTable d (remove Prod.fst x.1 (group.boundInstances d))
      have hremove : (w.putGroup g left).removeGroup e false ptr g=some (w₁.putGroup g left) := by
        rw [removeGroup_putGroup,hw₁]
        rfl
      have hsame : ∀ z∈rest,z.2.save.bind (w₁.putGroup g left).save=z.2.save.bind w.save := by
        intro z hz
        cases hq : z.2.save with
        | none => rfl
        | some q =>
          refine hsaves q fun heq => hother z (List.mem_cons_of_mem y hz) ?_
          rw [hq,heq]
      have hp' : ∀ z∈rest,resetsBind (w₁.putGroup g left) e method isRaid d z=
          resetsBind w e method isRaid d z := by
        intro z hz
        unfold resetsBind
        rw [hsame z hz]
      have hnext := @ih (w₁.putGroup g left) left (Function.update_self _ _ _)
        (fun z hz q hq => by
          have hz' := hsame z hz
          rw [hq,Option.bind_some,Option.bind_some] at hz'
          rw [hz']
          exact hlive z (List.mem_cons_of_mem x (List.mem_cons_of_mem y hz)) q hq)
        (by
          rw [List.filter_congr hp']
          exact hdistinct.2.sublist (((List.sublist_cons_self y rest).filter _).map _))
      rw [if_pos rfl,resetLoop_reset hptr hsave hp hg hremove y rest,hnext,taken_congr hp']
      cases taken (resetsBind w e method isRaid d) rest with
      | none => rfl
      | some gone =>
        have hptrs : (x::gone).filterMap (fun x => x.2.save)=ptr::gone.filterMap fun x => x.2.save :=
          List.filterMap_cons_some hptr
        have hforget : World.forgetAll e g (ptr::gone.filterMap fun x => x.2.save) w=
            World.forgetAll e g (gone.filterMap fun x => x.2.save) w₁ := by
          rw [World.forgetAll,hw₁]
          rfl
        have htable : left.setTable d ((left.boundInstances d).filter fun x => x.1∉gone.map Prod.fst)=
            group.setTable d ((group.boundInstances d).filter
              fun z => z.1∉(x::gone).map Prod.fst) := by
          rw [show left.boundInstances d=remove Prod.fst x.1 (group.boundInstances d) from
            Function.update_self _ _ _,remove,List.filter_filter]
          show Group.setTable (Group.setTable group d _) d _=_
          unfold Group.setTable
          rw [Function.update_idem]
          congr 2
          refine List.filter_congr fun z _ => ?_
          rw [List.map_cons,Bool.eq_iff_iff]
          simp only [Bool.and_eq_true,decide_eq_true_iff,List.mem_cons,not_or,ne_eq,and_comm]
        rw [Option.bind_some,Option.map_some,Option.bind_some,forgetAll_putGroup,Option.map_map,
          hptrs,hforget,htable]
        congr 1
        funext w'
        exact putGroup_putGroup w' g left _

/-- The binds that the reset is to take away are unbound and each of their saves is told once, and all
other binds stay. -/
def ResetsAll (w : World) (e : Env) (g : ℕ) (group : Group) (method : ResetMethod)
    (isRaid : Bool) : Prop :=
  let d := getDifficulty group isRaid
  let goes := resetsBind w e method isRaid d
  let told := ((group.boundInstances d).filter goes).filterMap fun x => x.2.save
  told.Nodup ∧ ∃ w₁,World.forgetAll e g told w=some w₁ ∧
    w.resetInstances e g method isRaid=some (w₁.putGroup g
      (group.setTable d ((group.boundInstances d).filter fun x => !goes x)))

/-- Nothing is to go, or the loop starts, takes all that are to go, and no two of them
have the same save. -/
def Resettable (w : World) (e : Env) (group : Group) (method : ResetMethod) (isRaid : Bool) :
    Bool :=
  let d := getDifficulty group isRaid
  let goes := resetsBind w e method isRaid d
  !(group.boundInstances d).any goes || (resetsTable group d && spaced goes (group.boundInstances d) &&
    (((group.boundInstances d).filter goes).filterMap fun x => x.2.save).Nodup)

theorem forgetAll_some {ptrs : List ℕ} (e : Env) (g : ℕ) (hnodup : ptrs.Nodup)
    (hlive : ∀ ptr∈ptrs,w.save ptr≠none) : ∃ w₁,World.forgetAll e g ptrs w=some w₁ := by
  induction ptrs generalizing w with
  | nil => exact ⟨w,rfl⟩
  | cons ptr ptrs ih =>
    obtain ⟨hnot,hrest⟩ := List.nodup_cons.mp hnodup
    obtain ⟨w',hw'⟩ := exists_removeGroup e g (hlive ptr List.mem_cons_self)
    obtain ⟨-,hsaves⟩ := removeGroup_kept hw'
    rw [World.forgetAll,hw']
    refine ih hrest fun other hother => ?_
    rw [hsaves other fun heq => hnot (heq ▸ hother)]
    exact hlive other (List.mem_cons_of_mem ptr hother)

/-- The keys of the entries taken say which entries these are. -/
theorem filter_notMem_keys {p : ℕ×InstanceGroupBind → Bool} {table : BoundInstancesMap}
    (hkeys : (table.map Prod.fst).Nodup) :
    table.filter (fun x => x.1∉(table.filter p).map Prod.fst)=table.filter fun x => !p x := by
  refine List.filter_congr fun x hx => ?_
  rw [Bool.eq_iff_iff,decide_eq_true_iff,Bool.not_eq_true',← not_iff_not,not_not,
    Bool.not_eq_false,List.mem_map]
  constructor
  · rintro ⟨y,hy,hkey⟩
    obtain ⟨hy,hp⟩ := List.mem_filter.mp hy
    rwa [← List.inj_on_of_nodup_map hkeys hy hx hkey]
  · exact fun hp => ⟨x,List.mem_filter.mpr ⟨hx,hp⟩,rfl⟩

/-- Entries that leave nothing to go behind are all of those that are to go. -/
theorem eq_filter_of_left {p : ℕ×InstanceGroupBind → Bool} {table gone : BoundInstancesMap}
    (hkeys : (table.map Prod.fst).Nodup) (hsub : gone.Sublist (table.filter p))
    (hleft : table.filter (fun x => x.1∉gone.map Prod.fst)=table.filter fun x => !p x) :
    gone=table.filter p := by
  have hall : table.filter p ⊆ gone := by
    intro x hx
    obtain ⟨hmem,hp⟩ := List.mem_filter.mp hx
    have hkey : x.1∈gone.map Prod.fst := by
      by_contra hnot
      have hstays : x∈table.filter fun x => !p x := by
        rw [← hleft]
        exact List.mem_filter.mpr ⟨hmem,decide_eq_true hnot⟩
      have hnotp := (List.mem_filter.mp hstays).2
      rw [hp] at hnotp
      cases hnotp
    obtain ⟨y,hy,heq⟩ := List.mem_map.mp hkey
    have hy' := (List.mem_filter.mp (hsub.subset hy)).1
    rwa [← List.inj_on_of_nodup_map hkeys hy' hmem heq]
  have hnodup : (table.filter p).Nodup := hkeys.of_map.filter p
  exact hsub.eq_of_length_le (hnodup.subperm hall).length_le

theorem map_save_eq (w : World) (e : Env) (method : ResetMethod) (isRaid : Bool) (d : Difficulty)
    (table : BoundInstancesMap) :
    ((table.filter (resetsBind w e method isRaid d)).map fun x => x.2.save)=
      ((table.filter (resetsBind w e method isRaid d)).filterMap fun x => x.2.save).map some := by
  induction table with
  | nil => rfl
  | cons x rest ih =>
    cases hp : resetsBind w e method isRaid d x with
    | false =>
      rw [List.filter_cons_of_neg (by rw [hp]; exact Bool.false_ne_true)]
      exact ih
    | true =>
      obtain ⟨ptr,save,hptr,-⟩ := save_of_resetsBind hp
      rw [List.filter_cons_of_pos hp,List.map_cons,ih,hptr,
        show (x::rest.filter (resetsBind w e method isRaid d)).filterMap (fun x => x.2.save)=
          ptr::(rest.filter (resetsBind w e method isRaid d)).filterMap fun x => x.2.save from
            List.filterMap_cons_some hptr]
      rfl

/-- A reset takes away all binds that it is to take away and no other one, and tells each of their saves
once, exactly if nothing is to go or the loop starts, no entry that is to go is last or
directly before another one, and no two of them have the same save. -/
theorem resets_all_iff (w : World) (e : Env) (g : ℕ) (group : Group) (method : ResetMethod)
    (isRaid : Bool) (hg : w.groups g=some group) (hbg : group.bg=false)
    (htable : BoundTable w (group.boundInstances (getDifficulty group isRaid))) :
    ResetsAll w e g group method isRaid ↔ Resettable w e group method isRaid=true := by
  rw [ResetsAll,Resettable]
  generalize hd : getDifficulty group isRaid=d at htable ⊢
  have hreset : w.resetInstances e g method isRaid=
      if resetsTable group d then
        World.resetLoop e method isRaid g d (group.boundInstances d) w else some w := by
    unfold World.resetInstances
    rw [hg]
    dsimp only
    rw [hbg,if_neg Bool.false_ne_true,hd]
  have hloop := fun hnodup => @resetLoop_eq w g group (group.boundInstances d) e method isRaid d hg
    htable.live (by rw [map_save_eq]; exact hnodup)
  have hsome : Function.Injective (some : ℕ → Option ℕ) := fun _ _ h => Option.some.inj h
  rw [List.nodup_map_iff hsome] at hloop
  have hfiltered := filter_notMem_keys (p := resetsBind w e method isRaid d) htable.keys
  rw [hreset,Bool.or_eq_true,Bool.not_eq_true',Bool.and_eq_true,Bool.and_eq_true,
    decide_eq_true_iff]
  generalize htold : ((group.boundInstances d).filter (resetsBind w e method isRaid d)).filterMap
    (fun x => x.2.save)=told at hloop ⊢
  by_cases hany : (group.boundInstances d).any (resetsBind w e method isRaid d)=true
  · rw [hany,or_iff_right (by exact fun h => by cases h)]
    have htables := fun w₁ table => table_putGroup w₁ g group d table
    constructor
    · rintro ⟨hnodup,w₁,hw₁,hresult⟩
      refine ⟨?_,hnodup⟩
      by_cases hstarts : resetsTable group d=true
      · refine ⟨hstarts,taken_eq_filter_iff.mp ?_⟩
        rw [if_pos hstarts,hloop hnodup] at hresult
        obtain ⟨gone,hgone,hforget⟩ := Option.bind_eq_some_iff.mp hresult
        obtain ⟨w₂,hw₂,hsame⟩ := Option.map_eq_some_iff.mp hforget
        have hleft := htables w₂ ((group.boundInstances d).filter fun x => x.1∉gone.map Prod.fst)
        rw [hsame,htables] at hleft
        rw [hgone,eq_filter_of_left htable.keys (sublist_of_taken hgone)
          (Option.some.inj hleft).symm]
      · rw [if_neg hstarts] at hresult
        obtain ⟨x,hx,hp⟩ := List.any_eq_true.mp hany
        have hleft := htables w₁ ((group.boundInstances d).filter
          fun x => !resetsBind w e method isRaid d x)
        rw [← Option.some.inj hresult,hg,Option.map_some] at hleft
        rw [Option.some.inj hleft] at hx
        have hnotp := (List.mem_filter.mp hx).2
        rw [hp] at hnotp
        cases hnotp
    · rintro ⟨⟨hstarts,hspaced⟩,hnodup⟩
      obtain ⟨w₁,hw₁⟩ := @forgetAll_some w told e g hnodup fun ptr hptr => by
        rw [← htold] at hptr
        obtain ⟨x,hx,hsave⟩ := List.mem_filterMap.mp hptr
        exact htable.live x (List.mem_filter.mp hx).1 ptr hsave
      refine ⟨hnodup,w₁,hw₁,?_⟩
      rw [if_pos hstarts,hloop hnodup,taken_eq_filter_iff.mpr hspaced,Option.bind_some,htold,hw₁,
        Option.map_some,hfiltered]
  · rw [Bool.not_eq_true] at hany
    have hnone : ∀ x∈group.boundInstances d,resetsBind w e method isRaid d x=false := fun x hx =>
      Bool.eq_false_iff.mpr (List.any_eq_false.mp hany x hx)
    have hnil : (group.boundInstances d).filter (resetsBind w e method isRaid d)=[] :=
      List.filter_eq_nil_iff.mpr fun x hx => by rw [hnone x hx]; exact Bool.false_ne_true
    rw [hnil] at htold hfiltered
    subst htold
    have hkeep := putGroup_taken_nil hg d
    rw [hfiltered] at hkeep
    refine iff_of_true ⟨List.nodup_nil,w,rfl,?_⟩ (Or.inl hany)
    rw [hkeep,hloop List.nodup_nil,taken_nil hnone,Option.bind_some]
    split_ifs
    · exact congrArg some (putGroup_taken_nil hg d)
    · rfl

/-- The maps 36 and 48 are dungeons, and nobody is inside. -/
def emptyDungeon : Env where
  havePlayers _ := false
  mapFound _ := false
  mapReset _ := true
  mapEntry mapId := if mapId=36 ∨ mapId=48 then some false else none
  instanceable _ := true
  resetTime _ _ := false
  downscaled _ d := some d
  hardMode _ := 0
  achieved _ _ := true
  leader := true
  memberMaps := []

/-- A group that is bound to that dungeon. -/
def boundGroup : Group where
  bg := false
  lfg := false
  dungeonDifficulty := 0
  raidDifficulty := 0
  boundInstances d := if d=0 then [(36,⟨some 0,false⟩)] else []

/-- The world around it. -/
def boundWorld : World where
  saves := [⟨0,1,36,0,true,false,0,[7]⟩]
  groups g := if g=7 then some boundGroup else none
  nextPtr := 1
  fault := false

/-- A group that is bound to both dungeons and, behind each, to another map, one of them of the number
of the difficulty. -/
def spacedGroup : Group :=
  { boundGroup with boundInstances := fun d => if d=0 then
      [(36,⟨some 0,false⟩),(0,⟨some 1,false⟩),(48,⟨some 2,false⟩),(1,⟨some 3,false⟩)] else [] }

/-- The world around it. -/
def spacedWorld : World where
  saves := [⟨0,1,36,0,true,false,0,[7]⟩,⟨1,2,0,0,true,false,0,[7]⟩,⟨2,3,48,0,true,false,0,[7]⟩,
    ⟨3,4,1,0,true,false,0,[7]⟩]
  groups g := if g=7 then some spacedGroup else none
  nextPtr := 4
  fault := false

theorem resets_all_iff_spaced : ResetsAll spacedWorld emptyDungeon 7 spacedGroup .all false := by
  refine (resets_all_iff spacedWorld emptyDungeon 7 spacedGroup .all false rfl rfl
    ⟨by decide,fun x hx ptr hptr => ?_⟩).mpr (by decide)
  have hlive : ∀ x∈spacedGroup.boundInstances 0,(x.2.save.bind spacedWorld.save).isSome := by decide
  have hx := hlive x hx
  rw [hptr,Option.bind_some] at hx
  exact Option.ne_none_iff_isSome.mpr hx

/-- The only bind is to go, but the loop does not start. -/
theorem bind_stays : ¬ResetsAll boundWorld emptyDungeon 7 boundGroup .all false := by
  rintro ⟨-,w₁,-,hresult⟩
  have hsame : boundWorld.resetInstances emptyDungeon 7 .all false=some boundWorld := rfl
  rw [hsame] at hresult
  have htable := table_putGroup w₁ 7 boundGroup (getDifficulty boundGroup false)
    ((boundGroup.boundInstances (getDifficulty boundGroup false)).filter fun x =>
      !resetsBind boundWorld emptyDungeon .all false (getDifficulty boundGroup false) x)
  rw [← Option.some.inj hresult] at htable
  exact absurd htable (by decide)

end Projectnelth.InstanceBindModel
