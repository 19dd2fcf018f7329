import Mathlib
import Projectnelth.ConditionSearcherMask

/-!
# Searching by the mask of a list of conditions

An object meets no list in each of whose else groups a row takes it out rightly. So a search that
asks for the mask of a list first finds every object that meets the list where the mask is there
and right about its kind, and it misses the object otherwise.
-/

namespace Projectnelth.ConditionModel

open OrderedMap GroupedWalk

section Evaluation

variable {Obj : Type*} [DecidableEq Obj] {w : World Obj} {info info' : ConditionSourceInfo Obj}
  {templates : List (ℕ×List Condition)} {conditions rows : List Condition} {c : Condition} {o : Obj}
  {t : TypeID} {met : Bool}

omit [DecidableEq Obj] in
/-- The owner of the anchor comes in as the third target only. -/
theorem ownerTarget_target0 (h : ownerTarget w info c=some info') : info'.target0=info.target0 := by
  unfold ownerTarget at h
  split_ifs at h
  · obtain ⟨anchor,-,heq⟩ := Option.map_eq_some_iff.mp h
    cases ho : anchorOwner w anchor <;> rw [ho] at heq <;> cases heq <;> rfl
  · cases h
    rfl

/-- What an answer says: the first target stays, and a row that is met and not turned around was
met by the target it is about. -/
theorem meets_cases (h : c.meets w info=some (met,info')) :
    info'.target0=info.target0 ∧
      (met=true → c.negativeCondition=false → ∃ info₁ object,info₁.target0=info.target0 ∧
        info₁.target c.conditionTarget=some object ∧
        condMeets w info₁ c object=some true) := by
  unfold Condition.meets at h
  by_cases hlt : c.conditionTarget < 3
  swap
  · rw [if_neg hlt] at h
    cases h
  rw [if_pos hlt] at h
  obtain ⟨info₁,howner,hrest⟩ := Option.bind_eq_some_iff.mp h
  have h0 := ownerTarget_target0 howner
  cases ht : info₁.target c.conditionTarget with
  | none =>
    rw [ht] at hrest
    cases hrest
    exact ⟨h0,fun hmet => Bool.noConfusion hmet⟩
  | some object =>
    rw [ht] at hrest
    obtain ⟨answer,hanswer,heq⟩ := Option.map_eq_some_iff.mp hrest
    cases heq
    refine ⟨?_,fun hmet hneg => ⟨info₁,object,h0,ht,?_⟩⟩
    · split_ifs <;> exact h0
    · rw [Bool.and_eq_true,hneg,if_neg Bool.false_ne_true] at hmet
      rw [hanswer,hmet.1]

/-- A row that takes the first target out is not met. -/
theorem excludes_plain (hexcl : c.Excludes templates (w.typeId o)) (own : c.referenceId=0)
    (ho : info.target0=some o) (h : c.meets w info=some (met,info')) : met=false := by
  cases hexcl with
  | template _ href => exact absurd own href
  | plain _ hneg hfirst hother =>
    refine Bool.eq_false_of_not_eq_true fun hmet => ?_
    obtain ⟨info₁,object,h0,ht,hmeets⟩ := (meets_cases h).2 hmet hneg
    rcases hfirst with htarget | hrelates
    · rw [htarget] at ht
      obtain rfl : object=o := Option.some.inj (ht.symm.trans (h0.trans ho))
      rw [subjects_of_condMeets hmeets] at hother
      cases hother
    · obtain ⟨hk,hzero⟩ := of_decide_eq_true hrelates
      obtain ⟨toObject,hto,hunit⟩ := isType_of_related hk hmeets
      rw [hzero] at hto
      obtain rfl : toObject=o := Option.some.inj (hto.symm.trans (h0.trans ho))
      unfold Condition.subjects at hother
      rcases hk with hk | hk <;> rw [hk] at hother <;> dsimp only at hother <;>
        rw [hunit] at hother <;> cases hother

theorem excludes_isLoaded (h : c.Excludes templates t) : c.isLoaded=true := by
  cases h with
  | template _ href => exact decide_eq_true (Or.inr href)
  | plain _ _ _ hother =>
    refine decide_eq_true (Or.inl fun hnone => ?_)
    unfold Condition.subjects at hother
    rw [hnone] at hother
    cases hother

theorem excludes_reference (hexcl : c.Excludes templates t) (href : c.referenceId≠0)
    (hfound : find c.referenceId templates=some rows) : ListExcludes templates t rows := by
  cases hexcl with
  | plain own => exact absurd own href
  | template pick _ hother hmem hsame hall =>
    obtain rfl := Option.some.inj (hfound.symm.trans hother)
    exact fun d hd => ⟨pick d,hmem d hd,hsame d hd,hall d hd⟩

section Passing

variable {σ ι : Type*} {group : ι → ℕ} {row : σ → ι → Option (Bool×σ)} {I : σ → Prop}
  {Q : ι → Prop} {l : List ι} {m m' : List (ℕ×Bool)} {s s' : σ}

theorem walk_passed (hrow : ∀ i∈l,∀ s met s',I s → row s i=some (met,s') → I s' ∧ (met=true → Q i))
    (hI : I s) (h : walk groupPassed group row m s l=some (m',s')) :
    I s' ∧ ∀ k,find k m'=some true → find k m≠some false ∧
      (find k m=none → ∃ i∈l,group i=k) ∧ ∀ i∈l,group i=k → Q i := by
  induction l generalizing m s with
  | nil =>
    cases h
    refine ⟨hI,fun k hk => ⟨by rw [hk]; decide,fun hnone => ?_,fun i hi => absurd hi List.not_mem_nil⟩⟩
    rw [hk] at hnone
    cases hnone
  | cons i l ih =>
    obtain ⟨⟨m₁,s₁⟩,hvisit,hwalk⟩ := Option.bind_eq_some_iff.mp h
    have hrest := fun j hj => hrow j (List.mem_cons_of_mem i hj)
    by_cases hdead : find (group i) m=some false
    · rw [visit_dead hdead rfl] at hvisit
      cases hvisit
      obtain ⟨hI',hpassed⟩ := ih hrest hI hwalk
      refine ⟨hI',fun k hk => ?_⟩
      obtain ⟨hnot,hcame,hall⟩ := hpassed k hk
      refine ⟨hnot,fun hnone => ?_,List.forall_mem_cons.mpr ⟨?_,hall⟩⟩
      · obtain ⟨j,hj,hgroup⟩ := hcame hnone
        exact ⟨j,List.mem_cons_of_mem i hj,hgroup⟩
      · exact fun hgroup => absurd (hgroup ▸ hdead) hnot
    · rw [visit_asked fun b hb => by
        cases b with
        | false => exact absurd hb hdead
        | true => rfl] at hvisit
      obtain ⟨⟨met,s₂⟩,hmet,heq⟩ := Option.map_eq_some_iff.mp hvisit
      cases heq
      obtain ⟨hI₁,hQ⟩ := hrow i List.mem_cons_self s met _ hI hmet
      obtain ⟨hI',hpassed⟩ := ih hrest hI₁ hwalk
      refine ⟨hI',fun k hk => ?_⟩
      obtain ⟨hnot,hcame,hall⟩ := hpassed k hk
      rw [find_write] at hnot hcame
      by_cases hgroup : group i=k
      · rw [if_pos hgroup] at hnot
        refine ⟨hgroup ▸ hdead,fun _ => ⟨i,List.mem_cons_self,hgroup⟩,
          List.forall_mem_cons.mpr ⟨fun _ => hQ ?_,hall⟩⟩
        refine Bool.eq_true_of_not_eq_false fun hmet => hnot ?_
        rw [hmet]
        exact congrArg some (Bool.and_false _)
      · rw [if_neg hgroup] at hnot hcame
        refine ⟨hnot,fun hnone => ?_,List.forall_mem_cons.mpr ⟨fun heq => absurd heq hgroup,hall⟩⟩
        obtain ⟨j,hj,hgroup'⟩ := hcame hnone
        exact ⟨j,List.mem_cons_of_mem i hj,hgroup'⟩

end Passing

/-- A list keeps the first target, and is not met by what its rows take out. -/
theorem listMeets_excludes
    {meets : ConditionSourceInfo Obj → List Condition → Option (Bool×ConditionSourceInfo Obj)}
    (hmeets : ∀ info rows met info',info.target0=some o → meets info rows=some (met,info') →
      info'.target0=some o ∧ (met=true → ¬ListExcludes templates (w.typeId o) rows))
    (ho : info.target0=some o) (h : listMeets w templates meets info conditions=some (met,info')) :
    info'.target0=some o ∧
      (met=true → ¬ListExcludes templates (w.typeId o) conditions) := by
  have hrow : ∀ c∈conditions.filter Condition.isLoaded,
      ∀ (info : ConditionSourceInfo Obj) met info',info.target0=some o →
        rowMeets w templates meets info c=some (met,info') → info'.target0=some o ∧
          (met=true → ¬c.Excludes templates (w.typeId o)) := by
    intro c _ info met info' ho hrow
    unfold rowMeets at hrow
    by_cases href : c.referenceId=0
    · rw [if_neg (not_not.mpr href)] at hrow
      refine ⟨(meets_cases hrow).1.trans ho,fun hmet hexcl => ?_⟩
      rw [excludes_plain hexcl href ho hrow] at hmet
      cases hmet
    rw [if_pos href] at hrow
    cases hfound : find c.referenceId templates with
    | none =>
      rw [hfound] at hrow
      cases hrow
      refine ⟨ho,fun _ hexcl => ?_⟩
      cases hexcl with
      | plain own => exact href own
      | template _ _ hother => rw [hfound] at hother; cases hother
    | some rows =>
      rw [hfound] at hrow
      obtain ⟨ho',hnot⟩ := hmeets info rows met info' ho hrow
      exact ⟨ho',fun hmet hexcl => hnot hmet (excludes_reference hexcl href hfound)⟩
  unfold listMeets at h
  obtain ⟨⟨m,info₁⟩,hwalk,heq⟩ := Option.map_eq_some_iff.mp h
  cases heq
  obtain ⟨ho',hpassed⟩ := walk_passed (I := fun info : ConditionSourceInfo Obj => info.target0=some o)
    hrow ho hwalk
  refine ⟨ho',fun hmet hexcl => ?_⟩
  obtain ⟨⟨k,passed⟩,hmem,rfl⟩ := List.any_eq_true.mp hmet
  have hfind := (sorted_walk List.Pairwise.nil hwalk).find_of_mem hmem
  obtain ⟨-,hcame,hall⟩ := hpassed k hfind
  obtain ⟨c,hc,rfl⟩ := hcame (find_nil k)
  obtain ⟨d,hd,hgroup,hout⟩ := hexcl c (List.mem_of_mem_filter hc)
  exact hall d (List.mem_filter.mpr ⟨hd,excludes_isLoaded hout⟩) hgroup hout

theorem listWithin_excludes (depth : ℕ) (ho : info.target0=some o)
    (h : listMeetsWithin w templates depth info conditions=some (met,info')) :
    info'.target0=some o ∧
      (met=true → ¬ListExcludes templates (w.typeId o) conditions) := by
  induction depth generalizing info met info' conditions with
  | zero => exact listMeets_excludes (fun _ _ _ _ _ hnone => by cases hnone) ho h
  | succ depth ih => exact listMeets_excludes (fun _ _ _ _ ho' hlist => ih ho' hlist) ho h

end Evaluation

/-- A search by the mask finds the object: if it stands in the grid, is the first target and
meets the list, then the list has a mask with the bit of its kind. -/
def MaskFinds {Obj : Type*} [DecidableEq Obj] (w : World Obj) (store : ReferenceStore)
    (info : ConditionSourceInfo Obj) (conditions : List Condition) (o : Obj) : Prop :=
  ∀ i info',info.target0=some o → (w.typeId o).gridBit=some i →
    isObjectMeetToConditionList w store info conditions=some (true,info') →
    ∃ mask,getSearcherTypeMaskForConditionList store conditions=some mask ∧
      mask.testBit i=true

/-- The searcher mask and the evaluator. A search by the mask finds every object that meets a list
whose mask is there and right about its kind; and it finds an object that meets a list just where
the mask is so. -/
theorem searcher_mask_finds {Obj : Type*} [DecidableEq Obj] (stores : LoadingStores)
    (store : ReferenceStore) (w : World Obj) (info : ConditionSourceInfo Obj) (o : Obj)
    (conditions : List Condition)
    (hloaded : ∀ c,Reached store.templates conditions c → Loaded stores c) :
    (Judged store.templates (w.typeId o) conditions → MaskFinds w store info conditions o) ∧
      ∀ i info',info.target0=some o → (w.typeId o).gridBit=some i →
        isObjectMeetToConditionList w store info conditions=some (true,info') →
        (MaskFinds w store info conditions o ↔
          Judged store.templates (w.typeId o) conditions) := by
  have hmask : Describes (ListMasked store.templates conditions)
      (ListAdmits store.templates · conditions)
      (getSearcherTypeMaskForConditionList store conditions) :=
    describes_within store store.depth hloaded fun c _ rows _ hrows => store.bounded _ rows hrows
  have hfinds : Judged store.templates (w.typeId o) conditions →
      MaskFinds w store info conditions o := by
    intro h i info' ho hi hmeets
    obtain ⟨mask,hm⟩ := Option.ne_none_iff_exists'.mp (hmask.isSome.mpr h.masked)
    have hnot := (listWithin_excludes store.depth ho hmeets).2 rfl
    exact ⟨mask,hm,(hmask.bit mask _ i hm hi).mpr (h.judged.resolve_right hnot)⟩
  refine ⟨hfinds,fun i info' ho hi hmeets => ⟨fun h => ?_,hfinds⟩⟩
  obtain ⟨mask,hm,hbit⟩ := h i info' ho hi hmeets
  exact ⟨hmask.isSome.mp (hm ▸ Option.some_ne_none mask),
    Or.inl ((hmask.bit mask _ i hm hi).mp hbit)⟩

/-- One object of each kind, of which nothing holds. -/
def quietWorld : World TypeID where
  typeId := id
  getOwner := fun _ => none
  toFloat := fun n => n
  hasAuraEffect := fun _ _ _ => false
  hasAura := fun _ _ => false
  hasMountedAura := fun _ => false
  hasFlyAura := fun _ => false
  hasItemCount := fun _ _ _ _ => false
  hasItemOrGemWithIdEquipped := fun _ _ => false
  zoneId := fun _ => 0
  faction := fun _ => false
  reputationRank := fun _ _ => 0
  hasAchieved := fun _ _ => false
  guildHasAchieved := fun _ => none
  team := fun _ => 0
  classMask := fun _ => 0
  raceMask := fun _ => 0
  gender := fun _ => 0
  hasSkill := fun _ _ => false
  baseSkillValue := fun _ _ => 0
  questRewardStatus := fun _ _ => false
  questStatus := fun _ _ => .none
  isActiveEvent := fun _ => false
  instanceScript := fun _ => none
  mapId := fun _ => 0
  areaId := fun _ => 0
  hasSpell := fun _ _ => false
  level := fun _ => 0
  drunkValue := fun _ => 0
  nearCreature := fun _ _ _ => false
  nearGameObject := fun _ _ _ => false
  entry := fun _ => 0
  dbTableGuidLow := fun _ => 0
  unitState := fun _ => 0
  isInPartyWith := fun _ _ => false
  isInRaidWith := fun _ _ => false
  ownerGuid := fun _ => 0
  creatorGuid := fun _ => 0
  guid := fun _ => 0
  isOnVehicle := fun _ _ => false
  reactionTo := fun _ _ => 0
  distance := fun _ _ => 0
  isAlive := fun _ => false
  health := fun _ => 0
  healthPct := fun _ => 0
  worldState := fun _ => 0
  phaseMask := fun _ => 0
  hasTitle := fun _ _ => false
  spawnMode := fun _ => 0
  isInWater := fun _ => false
  onConditionCheck := fun _ _ => true

/-- Stores in which every number is found. -/
def fullStores : LoadingStores where
  spellInfo := fun _ => true
  itemTemplate := fun _ => true
  areaZone := fun _ => some 0
  faction := fun _ => true
  skillLine := fun _ => true
  configMaxSkillValue := 450
  questTemplate := fun _ => true
  validEvent := fun _ => true
  achievement := fun _ => true
  map := fun _ => true
  creatureTemplate := fun _ => true
  gameObjectTemplate := fun _ => true
  creatureData := fun _ => none
  goData := fun _ => none
  worldState := fun _ => 1
  charTitle := fun _ => true

/-- A store without templates. -/
def noReferences : ReferenceStore :=
  ⟨[],fun _ => 0,0,fun _ _ h => (by cases h),fun _ _ h => (by cases h)⟩

/-- A row of the implicit targets of a spell. -/
def spellRow (elseGroup : ℕ) (kind : ℤ) (target value1 value2 : ℕ) : ConditionRow :=
  ⟨13,elseGroup,kind,target,value1,value2,0,0,0⟩

/-- A store with one template, which asks whether the first target is alive. -/
def sharedReferences : ReferenceStore where
  templates := [(7,[readCondition ⟨-7,0,36,0,0,0,0,0,0⟩])]
  rank := fun _ => 0
  depth := 1
  bounded := fun _ _ _ => Nat.one_pos
  acyclic := fun r rows h c hc rows' href => by
    rw [(Prod.mk.inj (List.mem_singleton.mp (mem_of_find h))).2] at hc
    rw [List.mem_singleton.mp hc] at href
    exact absurd rfl href

/-- The caster is asked for an item, or the template is. -/
def sharedList : List Condition :=
  [readCondition (spellRow 0 2 1 6948 1),
    {readCondition (spellRow 1 (-7) 0 0 0) with referenceId := 7}]

theorem loaded_shared (c : Condition) (h : Reached sharedReferences.templates sharedList c) :
    Loaded fullStores c := by
  cases h with
  | row hmem =>
    rcases List.mem_cons.mp hmem with rfl | hmem
    · exact ⟨spellRow 0 2 1 6948 1,by decide⟩
    · rw [List.mem_singleton.mp hmem]
      exact ⟨spellRow 1 (-7) 0 0 0,by decide⟩
  | template _ _ hfind hmem =>
    rw [(Prod.mk.inj (List.mem_singleton.mp (mem_of_find hfind))).2] at hmem
    rw [List.mem_singleton.mp hmem]
    exact ⟨⟨-7,0,36,0,0,0,0,0,0⟩,by decide⟩

theorem searcher_mask_finds_shared :
    MaskFinds {quietWorld with isAlive := fun _ => true} sharedReferences
      ⟨some .unit,some .player,none,none⟩ sharedList .unit := by
  refine (searcher_mask_finds fullStores sharedReferences _ _ _ _ loaded_shared).1 ⟨?_,Or.inl ?_⟩
  · rintro c ⟨before,after,hsplit,-⟩
    have hmem : c∈sharedList := hsplit ▸ List.mem_append_right before List.mem_cons_self
    rcases List.mem_cons.mp hmem with rfl | hmem
    · exact Condition.Masked.plain rfl (Or.inr rfl)
    · rw [List.mem_singleton.mp hmem]
      refine Condition.Masked.template (by decide) rfl ?_
      rintro d ⟨before,after,hsplit,-⟩
      have hmem := List.mem_append_right before (List.mem_cons_self (a := d) (l := after))
      rw [← hsplit] at hmem
      rw [List.mem_singleton.mp hmem]
      exact Condition.Masked.plain rfl (Or.inr rfl)
  · refine Or.inr ⟨_,List.mem_cons_of_mem _ List.mem_cons_self,fun d hd hgroup => ?_⟩
    rcases List.mem_cons.mp hd with rfl | hd
    · exact absurd hgroup (by decide)
    · rw [List.mem_singleton.mp hd]
      refine Condition.Admits.group (by decide) rfl List.mem_cons_self fun e he _ => ?_
      rw [List.mem_singleton.mp he]
      exact Condition.Admits.plain rfl (Or.inr rfl)

/-- The player who casts has the item that the only row of the list asks him for, and the
creature that is searched for meets the list with him. The mask is that of the players. -/
theorem caster_item_hides_creature :
    ¬∀ (stores : LoadingStores) (store : ReferenceStore) (conditions : List Condition)
      (w : World TypeID) (info : ConditionSourceInfo TypeID) (o : TypeID),
      (∀ c,Reached store.templates conditions c → Loaded stores c) →
      MaskFinds w store info conditions o := by
  intro h
  have hlist := h fullStores noReferences [readCondition (spellRow 0 2 1 6948 1)]
    {quietWorld with hasItemCount := fun _ _ _ _ => true} ⟨some .unit,some .player,none,none⟩
    .unit ?_ 1 _ rfl rfl rfl
  · obtain ⟨mask,hmask,hbit⟩ := hlist
    cases hmask
    exact Bool.noConfusion hbit
  · intro c hc
    cases hc with
    | row hmem =>
      rw [List.mem_singleton.mp hmem]
      exact ⟨spellRow 0 2 1 6948 1,by decide⟩
    | template _ _ hfind => cases hfind

end Projectnelth.ConditionModel
