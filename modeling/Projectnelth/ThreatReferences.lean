import Mathlib
import Projectnelth.RunInvariant
import Projectnelth.SinglePrecision
import Projectnelth.ThreatModel

/-!
# References and containers

Most steps leave the references where they are: they sort a list, mark it dirty, change a
threat or the victim. Such steps are one relation, kept by the events. What moves a reference
from one container to the other is the status event, after its flag was set.
-/

namespace Projectnelth.ThreatModel

open RunInvariant SinglePrecision

variable {F : Type}

section Sorting

variable [LT F] [LE F] [DecidableLT F] (o : FloatOps F)

omit [LE F] in
theorem update_perm (c : ThreatContainer) (refs : References F) :
    (c.update o refs).threatList.Perm c.threatList := by
  unfold ThreatContainer.update
  split
  · exact List.mergeSort_perm _ _
  · exact List.Perm.refl _

/-- An update of a dirty list leaves it with the highest threat first, if each threat is a
number. -/
theorem update_sorted [FloatOrder F] (c : ThreatContainer) (refs : References F)
    (h : c.dirty=true) (hnumber : ∀ r∈c.threatList,refs.getThreat o r ≤ refs.getThreat o r) :
    (c.update o refs).threatList.Pairwise
      fun a b => refs.getThreat o b ≤ refs.getThreat o a := by
  unfold ThreatContainer.update
  split
  · exact pairwise_mergeSort (refs.getThreat o) hnumber
  · next hshort =>
    have hlen : c.threatList.length ≤ 1 := by
      by_contra hlong
      exact hshort ⟨h,Nat.lt_of_not_le hlong⟩
    match hlist : c.threatList,hlen with
    | [],_ => exact List.Pairwise.nil
    | [_],_ => exact List.pairwise_singleton _ _

end Sorting

section Choosing

variable [LT F] [LE F] [DecidableLT F] [DecidableLE F]
variable (o : FloatOps F) (w : World F) (refs : References F)

/-- A look at a reference finds it or stays with the current victim. -/
theorem considerVictim_found {v : Option ℕ} {r target x : ℕ}
    (h : considerVictim o w refs v r target=.found x) : x=r ∨ v=some x := by
  unfold considerVictim at h
  split at h
  · cases v with
    | none =>
      cases h
      exact .inl rfl
    | some v =>
      dsimp only at h
      split at h
      · split at h
        · cases h
          exact .inr rfl
        · cases h
          exact .inl rfl
      · split at h
        · cases h
          exact .inl rfl
        · cases h
  · cases h

/-- The search without preference ends in the list or at the current victim. -/
theorem selectAny_mem {v : Option ℕ} {rs : List ℕ} {x : ℕ}
    (h : selectAny o w refs v rs=some x) : x∈rs ∨ v=some x := by
  induction rs with
  | nil => cases h
  | cons r rs ih =>
    unfold selectAny at h
    split at h
    · next y hy =>
      cases h
      exact (considerVictim_found o w refs hy).imp (fun he : _=r => he ▸ List.mem_cons_self) id
    · exact (ih h).imp (List.mem_cons_of_mem r) id

/-- So does the search that passes over targets of second choice. -/
theorem selectPreferred_mem {whole : List ℕ} {v : Option ℕ} {rs : List ℕ} {x : ℕ}
    (h : selectPreferred o w refs whole v rs=some x) (hsub : rs⊆whole) :
    x∈whole ∨ v=some x := by
  induction rs generalizing v with
  | nil => cases h
  | cons r rs ih =>
    have hrest : rs⊆whole := List.subset_of_cons_subset hsub
    unfold selectPreferred at h
    dsimp only at h
    split at h
    · split at h
      · refine (ih h hrest).imp id fun hv => ?_
        split at hv
        · cases hv
        · exact hv
      · exact selectAny_mem o w refs h
    · split at h
      · next y hy =>
        cases h
        have hmem : r∈whole := hsub List.mem_cons_self
        exact (considerVictim_found o w refs hy).imp (fun he => by rwa [he]) id
      · exact ih h hrest

end Choosing

/-- What holds of the references of a manager whenever no event is on its way. -/
structure Wellformed (m : ThreatManager F) : Prop where
  /-- No reference is in the two lists twice. -/
  nodup : (m.threatContainer.threatList++m.threatOfflineContainer.threatList).Nodup
  /-- The online container holds the references that are online. -/
  online : ∀ r, r∈m.threatContainer.threatList ↔
    ∃ ref, m.references r=some ref ∧ ref.online=true
  /-- The other one holds those that are not. -/
  offline : ∀ r, r∈m.threatOfflineContainer.threatList ↔
    ∃ ref, m.references r=some ref ∧ ref.online=false
  /-- A unit has one reference at most. -/
  unique : ∀ r r' ref ref', m.references r=some ref → m.references r'=some ref' →
    ref.unitGuid=ref'.unitGuid → r=r'
  /-- A new reference gets an address of its own. -/
  fresh : ∀ r ref, m.references r=some ref → r < m.nextReference
  valid : ∀ r ref, m.references r=some ref → ref.online=true → ref.valid=true
  victim : ∀ r, m.currentVictim=some r → r∈m.threatContainer.threatList

/-- The part of a reference that says where it belongs. -/
def HostileReference.place (ref : HostileReference F) : ℕ×Bool := (ref.unitGuid,ref.online)

/-- Every reference is in its place. -/
structure SamePlaces (m m' : ThreatManager F) : Prop where
  /-- The online list at most changes its order. -/
  online : m'.threatContainer.threatList.Perm m.threatContainer.threatList
  offline : m'.threatOfflineContainer.threatList=m.threatOfflineContainer.threatList
  references : ∀ r, (m'.references r).map HostileReference.place=
    (m.references r).map HostileReference.place
  /-- No address is given away. -/
  nextReference : m'.nextReference=m.nextReference
  owner : m'.owner=m.owner
  /-- A new victim is online. -/
  victim : ∀ r, m'.currentVictim=some r →
    m.currentVictim=some r ∨ r∈m.threatContainer.threatList

/-- A change that leaves every reference in its place, with its link. -/
structure Quiet (m m' : ThreatManager F) : Prop extends SamePlaces m m' where
  /-- No link is lost. -/
  valid : ∀ r ref ref', m.references r=some ref → m'.references r=some ref' →
    ref.valid=true → ref'.valid=true

theorem SamePlaces.back {m m' : ThreatManager F} (h : SamePlaces m m') {r : ℕ}
    {ref' : HostileReference F} (hr : m'.references r=some ref') :
    ∃ ref, m.references r=some ref ∧ ref.unitGuid=ref'.unitGuid ∧ ref.online=ref'.online := by
  have hp := h.references r
  rw [hr] at hp
  cases hm : m.references r with
  | none => simp [hm] at hp
  | some ref =>
    simp only [hm,Option.map_some,Option.some.injEq,HostileReference.place,
      Prod.mk.injEq] at hp
    exact ⟨ref,rfl,hp.1.symm,hp.2.symm⟩

theorem SamePlaces.forth {m m' : ThreatManager F} (h : SamePlaces m m') {r : ℕ}
    {ref : HostileReference F} (hr : m.references r=some ref) :
    ∃ ref', m'.references r=some ref' ∧ ref'.unitGuid=ref.unitGuid ∧
      ref'.online=ref.online := by
  have hp := h.references r
  rw [hr] at hp
  cases hm : m'.references r with
  | none => simp [hm] at hp
  | some ref' =>
    simp only [hm,Option.map_some,Option.some.injEq,HostileReference.place,
      Prod.mk.injEq] at hp
    exact ⟨ref',rfl,hp.1,hp.2⟩

/-- Nothing happens. -/
theorem Quiet.refl (m : ThreatManager F) : Quiet m m where
  online := List.Perm.refl _
  offline := rfl
  references _ := rfl
  valid r ref ref' h h' hv := by
    rw [h] at h'
    exact Option.some.inj h' ▸ hv
  nextReference := rfl
  owner := rfl
  victim _ h := .inl h

theorem Quiet.trans {m m' m'' : ThreatManager F} (h : Quiet m m') (h' : Quiet m' m'') :
    Quiet m m'' where
  online := h'.online.trans h.online
  offline := h'.offline.trans h.offline
  references r := (h'.references r).trans (h.references r)
  valid r ref ref'' hr hr'' hv := by
    obtain ⟨ref',hr',-⟩ := h.forth hr
    exact h'.valid r ref' ref'' hr' hr'' (h.valid r ref ref' hr hr' hv)
  nextReference := h'.nextReference.trans h.nextReference
  owner := h'.owner.trans h.owner
  victim r hr := by
    rcases h'.victim r hr with hv | hmem
    · exact h.victim r hv
    · exact .inr (h.online.mem_iff.mp hmem)

/-- The two lists stay without repetition. -/
theorem SamePlaces.nodup {m m' : ThreatManager F} (h : SamePlaces m m')
    (hn : (m.threatContainer.threatList++m.threatOfflineContainer.threatList).Nodup) :
    (m'.threatContainer.threatList++m'.threatOfflineContainer.threatList).Nodup := by
  rw [h.offline]
  exact (h.online.append_right _).nodup_iff.mpr hn

/-- What holds of the references is kept with their places, but for the links. -/
theorem Wellformed.samePlaces {m m' : ThreatManager F} (hw : Wellformed m)
    (h : SamePlaces m m')
    (hvalid : ∀ r ref, m'.references r=some ref → ref.online=true → ref.valid=true) :
    Wellformed m' where
  nodup := h.nodup hw.nodup
  online r := by
    rw [h.online.mem_iff,hw.online]
    constructor
    · rintro ⟨ref,hr,ho⟩
      obtain ⟨ref',hr',-,ho'⟩ := h.forth hr
      exact ⟨ref',hr',ho'.trans ho⟩
    · rintro ⟨ref',hr',ho'⟩
      obtain ⟨ref,hr,-,ho⟩ := h.back hr'
      exact ⟨ref,hr,ho.trans ho'⟩
  offline r := by
    rw [h.offline,hw.offline]
    constructor
    · rintro ⟨ref,hr,ho⟩
      obtain ⟨ref',hr',-,ho'⟩ := h.forth hr
      exact ⟨ref',hr',ho'.trans ho⟩
    · rintro ⟨ref',hr',ho'⟩
      obtain ⟨ref,hr,-,ho⟩ := h.back hr'
      exact ⟨ref,hr,ho.trans ho'⟩
  unique r r' a b ha hb hab := by
    obtain ⟨a₀,ha₀,hga,-⟩ := h.back ha
    obtain ⟨b₀,hb₀,hgb,-⟩ := h.back hb
    exact hw.unique r r' a₀ b₀ ha₀ hb₀ (hga.trans (hab.trans hgb.symm))
  fresh r ref hr := by
    obtain ⟨ref₀,hr₀,-⟩ := h.back hr
    rw [h.nextReference]
    exact hw.fresh r ref₀ hr₀
  valid := hvalid
  victim r hr := by
    rw [h.online.mem_iff]
    rcases h.victim r hr with hv | hmem
    · exact hw.victim r hv
    · exact hmem

/-- A quiet change keeps what holds of the references. -/
theorem Wellformed.quiet {m m' : ThreatManager F} (hw : Wellformed m) (h : Quiet m m') :
    Wellformed m' := by
  refine hw.samePlaces h.toSamePlaces fun r ref hr ho => ?_
  obtain ⟨ref₀,hr₀,-,ho₀⟩ := h.back hr
  exact h.valid r ref₀ ref hr₀ hr (hw.valid r ref₀ hr₀ (ho₀.trans ho))

/-- Marking a list is quiet. -/
theorem setDirty_quiet (m : ThreatManager F) (isDirty : Bool) : Quiet m (m.setDirty isDirty) :=
  { Quiet.refl m with }

theorem forgetVictim_quiet (m : ThreatManager F) (r : ℕ) : Quiet m (m.forgetVictim r) := by
  unfold ThreatManager.forgetVictim
  split
  · exact { Quiet.refl m with
      victim := (by rintro _ ⟨⟩) }
  · exact Quiet.refl m

theorem setReference_places {m : ThreatManager F} {r : ℕ} {ref ref' : HostileReference F}
    (hr : m.references r=some ref) (hplace : ref'.place=ref.place) :
    SamePlaces m (m.setReference r ref') :=
  { (Quiet.refl m).toSamePlaces with
    references := fun x => by
      by_cases hx : x=r
      · subst hx
        simp only [ThreatManager.setReference,Function.update_self,hr,Option.map_some,hplace]
      · simp only [ThreatManager.setReference,Function.update_of_ne hx] }

theorem setReference_eq {m : ThreatManager F} {r x : ℕ} {ref ref' : HostileReference F} :
    (m.setReference r ref).references x=some ref' ↔
      (x=r ∧ ref=ref') ∨ (x≠r ∧ m.references x=some ref') := by
  unfold ThreatManager.setReference
  by_cases hx : x=r
  · subst hx
    simp only [Function.update_self,Option.some.injEq,true_and,ne_eq,not_true,false_and,or_false]
  · simp only [Function.update_of_ne hx,hx,false_and,false_or,ne_eq,not_false_iff,true_and]

/-- A change that keeps the link too is quiet. -/
theorem setReference_quiet {m : ThreatManager F} {r : ℕ} {ref ref' : HostileReference F}
    (hr : m.references r=some ref) (hplace : ref'.place=ref.place)
    (hvalid : ref.valid=true → ref'.valid=true) : Quiet m (m.setReference r ref') where
  toSamePlaces := setReference_places hr hplace
  valid x a b ha hb hv := by
    rcases setReference_eq.mp hb with ⟨hx,he⟩ | ⟨-,hb₀⟩
    · subst hx
      rw [hr] at ha
      cases ha
      exact he ▸ hvalid hv
    · rw [ha] at hb₀
      exact Option.some.inj hb₀ ▸ hv

/-- A new link is quiet. -/
theorem relink_quiet (w : World F) (m : ThreatManager F) (r : ℕ) : Quiet m (m.relink w r) := by
  unfold ThreatManager.relink
  split
  · exact Quiet.refl m
  next ref hr =>
  split
  · exact @setReference_quiet _ m r ref { ref with valid := true } hr rfl fun _ => rfl
  · exact Quiet.refl m

section Events

variable [LT F] [LE F] [DecidableLT F] [DecidableLE F]
variable (o : FloatOps F) (w : World F)

omit [LE F] [DecidableLE F] in
theorem updateContainer_quiet (m : ThreatManager F) : Quiet m (m.updateContainer o) :=
  { Quiet.refl m with
    online := update_perm o m.threatContainer m.references }

theorem getHostilTarget_quiet (m : ThreatManager F) : Quiet m (m.getHostilTarget o w).1 := by
  have hu := updateContainer_quiet o m
  refine hu.trans ?_
  unfold ThreatManager.getHostilTarget
  dsimp only
  split
  · next r hr =>
    exact { Quiet.refl (m.updateContainer o) with
      victim := fun x hx => by
        cases hx
        exact (selectPreferred_mem o w _ hr (List.Subset.refl _)).symm }
  · exact Quiet.refl _

/-- What follows the `switch` of an event is quiet. -/
theorem processThreatEvent_quiet {m : ThreatManager F} {r : ℕ} {ref : HostileReference F}
    (hr : m.references r=some ref) (type : UNIT_EVENT_TYPE) (fValue : F) :
    Quiet (m.onEvent o r ref fValue type) (m.processThreatEvent o w type r fValue) := by
  unfold ThreatManager.processThreatEvent
  rw [hr]
  dsimp only
  refine (updateContainer_quiet o _).trans ?_
  split
  · exact Quiet.refl _
  · split
    · exact getHostilTarget_quiet o w _
    · exact Quiet.refl _

theorem threatChange_quiet (m : ThreatManager F) (r : ℕ) (fValue : F) :
    Quiet m (m.processThreatEvent o w .threatChange r fValue) := by
  cases hr : m.references r with
  | none =>
    unfold ThreatManager.processThreatEvent
    rw [hr]
    exact Quiet.refl m
  | some ref =>
    refine Quiet.trans ?_ (processThreatEvent_quiet o w hr .threatChange fValue)
    dsimp only [ThreatManager.onEvent]
    split
    · exact setDirty_quiet m true
    · exact Quiet.refl m

theorem setAccessibleState_quiet (m : ThreatManager F) (r : ℕ) (isAccessible : Bool) :
    Quiet m (m.setAccessibleState o w r isAccessible) := by
  unfold ThreatManager.setAccessibleState
  split
  · exact Quiet.refl m
  next ref hr =>
  split
  · refine (@setReference_quiet _ m r ref { ref with accessible := isAccessible } hr rfl
      id).trans ?_
    exact processThreatEvent_quiet o w (Function.update_self r _ _) .accessibleStatus _
  · exact Quiet.refl m

end Events

end Projectnelth.ThreatModel
