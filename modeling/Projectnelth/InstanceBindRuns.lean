import Mathlib
import Projectnelth.InstanceBindSwitch

/-!
# Runs of instance binds

The two sides of a bind agree along every run whose binds are of the kind of their save, whose
resets end inside the table, whose switches write no entry over another, and whose destructors
go over their tables.
-/

namespace Projectnelth.InstanceBindModel

open KeyedList TwoSided World RunInvariant

variable {w w' : World} {e : Env} {g : ℕ} {group : Group}

/-- The two sides of every bind agree. -/
structure Symmetric (w : World) : Prop where
  /-- Nothing was followed that is not there. -/
  fault : w.fault=false
  /-- A group is listed, once, just where its table has the save under the place of the save. -/
  listed : ∀ save∈w.saves, ∀ g, save.groupList.count g=
    if boundOf w.groups g (save.difficulty,save.key)=some save.ptr then 1 else 0
  /-- An entry points to a save that is there, of its place. -/
  pointers : ∀ g group, w.groups g=some group → ∀ d, ∀ x∈group.boundInstances d,
    ∃ save∈w.saves, x.2.save=some save.ptr ∧ save.difficulty=d ∧ save.key=x.1
  groups : ∀ save∈w.saves, ∀ g∈save.groupList, w.groups g≠none

/-- What holds between two actions says that the two sides agree. -/
theorem Inv.symmetric (h : Inv w) : Symmetric w := by
  have hlisted : ∀ save∈w.saves, ∀ g, g∈save.groupList ↔
      boundOf w.groups g (save.difficulty,save.key)=some save.ptr := fun save hmem g => by
    refine ⟨h.agree.listed save hmem g,fun hentry => ?_⟩
    obtain ⟨save',hmem',hname,-,howner⟩ := h.agree.entry g _ _ hentry
    exact List.inj_on_of_nodup_map h.agree.names hmem' hmem hname ▸ howner
  refine ⟨h.fault,fun save hmem g => ?_,fun g group hg d x hx => ?_,fun save hmem g hmem' => ?_⟩
  · split_ifs with hentry
    · exact List.count_eq_one_of_mem (h.agree.once save hmem) ((hlisted save hmem g).mpr hentry)
    · exact List.count_eq_zero_of_not_mem fun hmem' => hentry ((hlisted save hmem g).mp hmem')
  · have hleft := h.left hg d
    obtain ⟨ptr,hptr⟩ := Option.ne_none_iff_exists'.mp (hleft.saves x hx)
    obtain ⟨save,hmem,hname,hplace,-⟩ :=
      h.agree.entry g (d,x.1) ptr ((hleft.entry x hx).trans hptr)
    have hname : save.ptr=ptr := hname
    have hplace : (save.difficulty,save.key)=(d,x.1) := hplace
    exact ⟨save,hmem,hname ▸ hptr,(Prod.mk.inj hplace).1,(Prod.mk.inj hplace).2⟩
  · obtain ⟨group,-,hg,-⟩ := group_of_boundOf ((hlisted save hmem g).mp hmem')
    exact hg ▸ Option.some_ne_none group

/-- The action is one that keeps the binds. -/
def lawful (w : World) (a : Action×Env) : Bool :=
  match a.1 with
  | .bindToInstance g ptr _ =>
    match w.groups g,w.save ptr with
    | some group,some save => group.bg || group.lfg==save.lfg
    | _,_ => true
  | .resetInstances g method isRaid =>
    match w.groups g with
    | none => true
    | some group =>
      let d := getDifficulty group isRaid
      group.bg || !resetsTable group d ||
        resetEnds (resetsBind w a.2 method isRaid d) (group.boundInstances d)
  | .switchBoundInstance g previous new =>
    match w.groups g with
    | none => true
    | some group =>
      !a.2.leader ||
        (group.boundInstances previous).all (switchesWell w a.2 g group previous new)
  | .destroy g =>
    match w.groups g with
    | none => true
    | some group => (group.boundInstances 0).length≠0 || (binds group).isEmpty
  | _ => true

/-- `ResetInstances` that ends inside its table. -/
theorem Inv.resetInstances (h : Inv w) (e : Env) (hg : w.groups g=some group)
    (method : ResetMethod) (isRaid : Bool)
    (hends : group.bg=true ∨ resetsTable group (getDifficulty group isRaid)=false ∨
      resetEnds (resetsBind w e method isRaid (getDifficulty group isRaid))
        (group.boundInstances (getDifficulty group isRaid))=true) :
    ∃ w', w.resetInstances e g method isRaid=some w' ∧ Inv w' ∧ w'.groups g≠none := by
  have hsome : w.groups g≠none := hg ▸ Option.some_ne_none group
  unfold World.resetInstances
  rw [hg]
  dsimp only
  split_ifs with hbg htable
  · exact ⟨w,rfl,h,hsome⟩
  · refine h.resetLoop e method isRaid (h.left hg _) hsome ?_
    rcases hends with hends | hends | hends
    · exact absurd hends hbg
    · rw [hends] at htable
      cases htable
    · exact hends
  · exact ⟨w,rfl,h,hsome⟩

theorem binds_eq_nil (h : binds group=[]) (d : Difficulty) : group.boundInstances d=[] := by
  have hd : ∀ d : Difficulty, d=0 ∨ d=1 ∨ d=2 ∨ d=3 := by decide
  unfold binds at h
  simp only [List.append_eq_nil_iff] at h
  rcases hd d with rfl | rfl | rfl | rfl
  exacts [h.1.1.1,h.1.1.2,h.1.2,h.2]

/-- An action that is lawful ends, and keeps what holds. -/
theorem Inv.act (h : Inv w) (a : Action×Env) (ha : lawful w a=true) :
    ∃ w', w.act a.2 a.1=some w' ∧ Inv w' := by
  obtain ⟨action,e⟩ := a
  unfold World.act
  cases action with
  | newGroup g bg lfg dungeonDifficulty raidDifficulty =>
    dsimp only
    cases hg : w.groups g with
    | none => exact ⟨_,rfl,h.newGroup hg bg lfg dungeonDifficulty raidDifficulty⟩
    | some group => exact ⟨w,rfl,h⟩
  | setLfg g lfg =>
    dsimp only
    cases hg : w.groups g with
    | none => exact ⟨w,rfl,h⟩
    | some group =>
      exact ⟨_,rfl,Good.putGroup h ⟨(h.tables g group hg).keys,(h.tables g group hg).saves⟩
        (boundOf_same hg rfl)⟩
  | addInstanceSave mapId instanceId d canReset lfg =>
    exact ⟨_,rfl,h.addInstanceSave e mapId instanceId d canReset lfg⟩
  | addPlayer ptr => exact ⟨_,rfl,h.addPlayer ptr⟩
  | setCanReset ptr canReset => exact ⟨_,rfl,h.setCanReset ptr canReset⟩
  | removePlayer ptr => exact ⟨_,rfl,h.removePlayer e ptr⟩
  | bindToInstance g ptr permanent =>
    unfold lawful at ha
    dsimp only at ha ⊢
    cases hg : w.groups g with
    | none => exact ⟨w,rfl,h⟩
    | some group =>
      cases hsave : w.save ptr with
      | none => exact ⟨w,rfl,h⟩
      | some save =>
        rw [hg,hsave] at ha
        dsimp only at ha ⊢
        cases hbg : group.bg with
        | true =>
          refine ⟨w,?_,h⟩
          unfold World.bindToInstance
          rw [if_pos hbg]
        | false =>
          rw [hbg,Bool.false_or] at ha
          exact h.bindToInstance e hg hsave (beq_iff_eq.mp ha) permanent
  | unbindInstance g mapId d isLfgId =>
    dsimp only
    cases hg : w.groups g with
    | none => exact ⟨w,rfl,h⟩
    | some group => exact h.unbindInstance e hg mapId d isLfgId
  | resetInstances g method isRaid =>
    dsimp only
    cases hg : w.groups g with
    | none =>
      refine ⟨w,?_,h⟩
      unfold World.resetInstances
      rw [hg]
    | some group =>
      unfold lawful at ha
      dsimp only at ha
      rw [hg] at ha
      simp only [Bool.or_eq_true,Bool.not_eq_true',or_assoc] at ha
      obtain ⟨w',hreset,hinv,-⟩ := h.resetInstances e hg method isRaid ha
      exact ⟨w',hreset,hinv⟩
  | switchBoundInstance g previous new =>
    dsimp only
    cases hg : w.groups g with
    | none => exact ⟨w,rfl,h⟩
    | some group =>
      unfold lawful at ha
      dsimp only at ha ⊢
      rw [hg] at ha
      simp only [Bool.or_eq_true,Bool.not_eq_true',List.all_eq_true] at ha
      refine h.switchBoundInstance e hg previous new fun hleader x hx => ?_
      rcases ha with ha | ha
      · rw [hleader] at ha
        cases ha
      · exact ha x hx
  | destroy g =>
    dsimp only
    cases hg : w.groups g with
    | none => exact ⟨w,rfl,h⟩
    | some group =>
      unfold lawful at ha
      dsimp only at ha ⊢
      rw [hg] at ha
      simp only [Bool.or_eq_true,decide_eq_true_eq,List.isEmpty_iff] at ha
      exact h.destroy e hg (ha.imp_right fun hnil => binds_eq_nil hnil)
  | resetInstance mapId instanceId => exact h.resetInstance e mapId instanceId
  | resetAll mapId d => exact h.resetAll e mapId d

theorem Inv.step (h : Inv w) (a : Action×Env) (ha : lawful w a=true) : Inv (w.step a) := by
  obtain ⟨w',hact,hinv⟩ := h.act a ha
  unfold World.step
  rw [h.fault,hact]
  exact hinv

/-- Nothing is bound before anything happens. -/
theorem inv_start : Inv World.start :=
  ⟨rfl,⟨List.nodup_nil,(by rintro _ ⟨⟩),(by rintro _ ⟨⟩),(by rintro _ ⟨⟩)⟩,(by rintro _ _ ⟨⟩),List.nodup_nil,(by rintro _ _ _ ⟨⟩),(by rintro _ ⟨⟩),(by rintro _ ⟨⟩)⟩

/-- The two sides of every bind agree in every state that a run of lawful actions reaches. -/
theorem instance_binds_symmetric (as : List (Action×Env))
    (hlawful : Meets World.step (fun w a => lawful w a=true) World.start as) :
    Symmetric (run World.step World.start as) := by
  have hinv : Inv (run World.step World.start as) :=
    run_invariant (I := Inv) (fun _ a h ha => Inv.step h a ha) inv_start hlawful
  exact hinv.symmetric

/-- The actions of a `Disband`. -/
def disbandActions (g : ℕ) (e : Env) : List (Action×Env) :=
  [(.resetInstances g .groupDisband false,e),(.resetInstances g .groupDisband true,e),
    (.destroy g,e)]

/-- A reset that is lawful is a step that leaves the group there. -/
theorem Inv.step_resetInstances (h : Inv w) (hg : w.groups g≠none) (method : ResetMethod)
    (isRaid : Bool) (hlawful : lawful w (.resetInstances g method isRaid,e)=true) :
    w.resetInstances e g method isRaid=some (w.step (.resetInstances g method isRaid,e)) ∧
      (w.step (.resetInstances g method isRaid,e)).groups g≠none := by
  obtain ⟨group,hgroup⟩ := Option.ne_none_iff_exists'.mp hg
  unfold lawful at hlawful
  dsimp only at hlawful
  rw [hgroup] at hlawful
  simp only [Bool.or_eq_true,Bool.not_eq_true',or_assoc] at hlawful
  obtain ⟨w',hreset,-,hg'⟩ := h.resetInstances e hgroup method isRaid hlawful
  have hstep : w.step (.resetInstances g method isRaid,e)=w' := by
    unfold World.step World.act
    rw [h.fault]
    dsimp only
    rw [hreset]
    rfl
  rw [hstep]
  exact ⟨hreset,hg'⟩

theorem Inv.step_destroy (h : Inv w) (hg : w.groups g≠none)
    (hlawful : lawful w (.destroy g,e)=true) :
    w.destroy e g=some (w.step (.destroy g,e)) := by
  obtain ⟨group,hgroup⟩ := Option.ne_none_iff_exists'.mp hg
  obtain ⟨w',hact,-⟩ := h.act _ hlawful
  have hstep : w.step (.destroy g,e)=w' := by
    unfold World.step
    rw [h.fault,hact]
    rfl
  unfold World.act at hact
  dsimp only at hact
  rw [hgroup] at hact
  rw [hstep]
  exact hact

/-- A `Disband` is the run of its actions. -/
theorem disband_eq_run (h : Inv w) (hg : w.groups g≠none)
    (hlawful : Meets World.step (fun w a => lawful w a=true) w (disbandActions g e)) :
    w.disband e g=some (run World.step w (disbandActions g e)) := by
  obtain ⟨hfirst,hsecond,hthird,-⟩ := hlawful
  obtain ⟨group,hgroup⟩ := Option.ne_none_iff_exists'.mp hg
  obtain ⟨hreset₁,hg₁⟩ := h.step_resetInstances hg _ _ hfirst
  have hinv₁ := h.step _ hfirst
  obtain ⟨hreset₂,hg₂⟩ := hinv₁.step_resetInstances hg₁ _ _ hsecond
  have hdestroy := (hinv₁.step _ hsecond).step_destroy hg₂ hthird
  show _=some ((((w.step _).step _)).step _)
  rw [← hdestroy]
  unfold World.disband
  rw [hgroup]
  dsimp only [Bind.bind,Option.bind]
  split_ifs with hbg
  · have hnothing : ∀ isRaid, w.resetInstances e g .groupDisband isRaid=some w := fun isRaid => by
      unfold World.resetInstances
      rw [hgroup]
      exact if_pos hbg
    rw [← Option.some.inj ((hnothing false).symm.trans hreset₁)] at hreset₂ ⊢
    rw [← Option.some.inj ((hnothing true).symm.trans hreset₂)]
  · rw [hreset₁]
    dsimp only
    rw [hreset₂]

/-- A server where every map is a raid of four difficulties. -/
def plainEnv : Env where
  havePlayers _ := false
  mapFound _ := false
  mapReset _ := false
  mapEntry _ := some true
  instanceable _ := true
  resetTime _ _ := true
  downscaled _ d := some d
  hardMode _ := 0
  achieved _ _ := true
  leader := true
  memberMaps := []

/-- A group binds itself, switches, binds itself to a second save, and both are reset. -/
theorem instance_binds_symmetric_switched :
    Symmetric (run World.step World.start [(.newGroup 7 false false 0 0,plainEnv),
      (.addInstanceSave 631 1 0 true false,plainEnv),(.bindToInstance 7 0 true,plainEnv),
      (.switchBoundInstance 7 0 1,plainEnv),(.addInstanceSave 724 2 0 true false,plainEnv),
      (.bindToInstance 7 1 false,plainEnv),(.resetInstance 631 1,plainEnv),
      (.destroy 7,plainEnv)]) :=
  instance_binds_symmetric _ (by decide)

/-- A group that is bound in the second table only leaves its pointer in the save. The other
group is bound in two difficulties, and its switch writes the one entry over the other: the save
that had it still lists the group. -/
theorem destroyed_and_overwritten :
    let destroyed := run World.step World.start [(.newGroup 7 false false 0 0,plainEnv),
      (.addInstanceSave 631 1 1 true false,plainEnv),(.bindToInstance 7 0 true,plainEnv),
      (.resetInstances 7 .groupDisband false,plainEnv),
      (.resetInstances 7 .groupDisband true,plainEnv),(.destroy 7,plainEnv)]
    let switched := run World.step World.start [(.newGroup 7 false false 0 0,plainEnv),
      (.addInstanceSave 631 1 0 true false,plainEnv),
      (.addInstanceSave 631 2 1 true false,plainEnv),(.bindToInstance 7 0 true,plainEnv),
      (.bindToInstance 7 1 true,plainEnv),(.switchBoundInstance 7 0 1,plainEnv)]
    ((destroyed.save 0).map InstanceSave.groupList=some [7] ∧ (destroyed.groups 7).isNone) ∧
      (switched.save 1).map (fun save => (save.difficulty,save.key,save.groupList))=
        some (1,631,[7]) ∧
      boundOf switched.groups 7 (1,631)=some 0 ∧ ¬Symmetric destroyed ∧ ¬Symmetric switched := by
  refine ⟨by decide,by decide,by decide,fun h => ?_,fun h => ?_⟩
  · exact h.groups ⟨0,1,631,1,true,false,0,[7]⟩ (by decide) 7 (by decide)
      (Option.isNone_iff_eq_none.mp (by decide))
  · exact absurd (h.listed ⟨1,2,631,1,true,false,0,[7]⟩ (by decide) 7) (by decide)

end Projectnelth.InstanceBindModel
