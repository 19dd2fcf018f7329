import Mathlib
import Projectnelth.ThreatReferences

/-!
# The two containers over a run

A status event finds its reference with the flag set already and still in the old list; what
holds of the references is back in place when it ends. A new reference, a deleted one and a
cleared manager are the other changes. The threat for the masters of a unit is an induction
on how many masters stand above it.
-/

namespace Projectnelth.ThreatModel

open RunInvariant SinglePrecision

variable {F : Type}

theorem Wellformed.listed {m : ThreatManager F} (hw : Wellformed m) {r : ℕ}
    {ref : HostileReference F} (hr : m.references r=some ref) :
    r∈m.threatContainer.threatList++m.threatOfflineContainer.threatList := by
  rw [List.mem_append,hw.online,hw.offline]
  cases ho : ref.online with
  | true => exact .inl ⟨ref,hr,ho⟩
  | false => exact .inr ⟨ref,hr,ho⟩

theorem Wellformed.not_online {m : ThreatManager F} (hw : Wellformed m) {r : ℕ}
    {ref : HostileReference F} (hr : m.references r=some ref) (ho : ref.online=false) :
    r∉m.threatContainer.threatList := by
  rw [hw.online]
  rintro ⟨ref',hr',ho'⟩
  rw [hr] at hr'
  cases hr'
  rw [ho] at ho'
  cases ho'

theorem Wellformed.not_offline {m : ThreatManager F} (hw : Wellformed m) {r : ℕ}
    {ref : HostileReference F} (hr : m.references r=some ref) (ho : ref.online=true) :
    r∉m.threatOfflineContainer.threatList := by
  rw [hw.offline]
  rintro ⟨ref',hr',ho'⟩
  rw [hr] at hr'
  cases hr'
  rw [ho] at ho'
  cases ho'

section Moves

variable {m m' : ThreatManager F} {r : ℕ} {ref : HostileReference F} {b : Bool}

/-- The lists of a manager are set. -/
def ThreatManager.setLists (m : ThreatManager F) (online offline : List ℕ) : ThreatManager F :=
  { m with
    threatContainer := { m.threatContainer with threatList := online }
    threatOfflineContainer := { m.threatOfflineContainer with threatList := offline } }

theorem Quiet.moved_back (hq : Quiet (m.setReference r { ref with online := b }) m') {x : ℕ}
    {a : HostileReference F} (ha : m'.references x=some a) :
    (x=r ∧ a.unitGuid=ref.unitGuid ∧ a.online=b) ∨
      (x≠r ∧ ∃ a₀, m.references x=some a₀ ∧ a₀.unitGuid=a.unitGuid ∧ a₀.online=a.online) := by
  obtain ⟨a₁,ha₁,hg,ho⟩ := hq.back ha
  rcases setReference_eq.mp ha₁ with ⟨hx,he⟩ | ⟨hx,he⟩
  · subst he
    exact .inl ⟨hx,hg.symm,ho.symm⟩
  · exact .inr ⟨hx,a₁,he,hg,ho⟩

/-- The reference itself has the new status. -/
theorem Quiet.moved_self (hq : Quiet (m.setReference r { ref with online := b }) m') :
    ∃ a, m'.references r=some a ∧ a.unitGuid=ref.unitGuid ∧ a.online=b :=
  hq.forth (setReference_eq.mpr (.inl ⟨rfl,rfl⟩))

/-- The others are still there. -/
theorem Quiet.moved_forth (hq : Quiet (m.setReference r { ref with online := b }) m') {x : ℕ}
    {a₀ : HostileReference F} (hx : x≠r) (ha₀ : m.references x=some a₀) :
    ∃ a, m'.references x=some a ∧ a.unitGuid=a₀.unitGuid ∧ a.online=a₀.online :=
  hq.forth (setReference_eq.mpr (.inr ⟨hx,ha₀⟩))

theorem Quiet.moved_status (hq : Quiet (m.setReference r { ref with online := b }) m')
    (x : ℕ) (s : Bool) :
    (∃ a, m'.references x=some a ∧ a.online=s) ↔
      (x=r ∧ b=s) ∨ (x≠r ∧ ∃ a₀, m.references x=some a₀ ∧ a₀.online=s) := by
  constructor
  · rintro ⟨a,ha,ho⟩
    rcases hq.moved_back ha with ⟨hx,-,hb⟩ | ⟨hx,a₀,ha₀,-,ho₀⟩
    · exact .inl ⟨hx,hb.symm.trans ho⟩
    · exact .inr ⟨hx,a₀,ha₀,ho₀.trans ho⟩
  · rintro (⟨hx,hb⟩ | ⟨hx,a₀,ha₀,ho₀⟩)
    · obtain ⟨a,ha,-,ho⟩ := hq.moved_self
      exact ⟨a,hx ▸ ha,ho.trans hb⟩
    · obtain ⟨a,ha,-,ho⟩ := hq.moved_forth hx ha₀
      exact ⟨a,ha,ho.trans ho₀⟩

theorem Quiet.moved_guid (hq : Quiet (m.setReference r { ref with online := b }) m')
    (hr : m.references r=some ref) {x : ℕ} {a : HostileReference F}
    (ha : m'.references x=some a) :
    ∃ a₀, m.references x=some a₀ ∧ a₀.unitGuid=a.unitGuid := by
  rcases hq.moved_back ha with ⟨hx,hg,-⟩ | ⟨-,a₀,ha₀,hg,-⟩
  · exact ⟨ref,hx ▸ hr,hg.symm⟩
  · exact ⟨a₀,ha₀,hg⟩

theorem Wellformed.move (hw : Wellformed m) (hr : m.references r=some ref)
    (hvalid : b=true → ref.valid=true)
    (hq : Quiet (m.setReference r { ref with online := b }) m') (online offline : List ℕ)
    (hon : ∀ x, x∈online ↔ (x=r ∧ b=true) ∨ (x≠r ∧ x∈m'.threatContainer.threatList))
    (hoff : ∀ x, x∈offline ↔ (x=r ∧ b=false) ∨
      (x≠r ∧ x∈m'.threatOfflineContainer.threatList))
    (hnodup : (online++offline).Nodup) (hvictim : b=false → m'.currentVictim≠some r) :
    Wellformed (m'.setLists online offline) where
  nodup := hnodup
  online x := by
    refine (hon x).trans (Iff.trans ?_ (hq.moved_status x true).symm)
    rw [hq.online.mem_iff]
    exact or_congr_right (and_congr_right fun _ => hw.online x)
  offline x := by
    refine (hoff x).trans (Iff.trans ?_ (hq.moved_status x false).symm)
    rw [hq.offline]
    exact or_congr_right (and_congr_right fun _ => hw.offline x)
  unique x y a c ha hc hac := by
    obtain ⟨a₀,ha₀,hga⟩ := hq.moved_guid hr ha
    obtain ⟨c₀,hc₀,hgc⟩ := hq.moved_guid hr hc
    exact hw.unique x y a₀ c₀ ha₀ hc₀ (hga.trans (hac.trans hgc.symm))
  fresh x a ha := by
    obtain ⟨a₀,ha₀,-⟩ := hq.moved_guid hr ha
    rw [show (m'.setLists online offline).nextReference=m'.nextReference from rfl,
      hq.nextReference]
    exact hw.fresh x a₀ ha₀
  valid x a ha ho := by
    rcases hq.moved_back ha with ⟨hx,-,hb⟩ | ⟨hx,a₀,ha₀,-,ho₀⟩
    · subst hx
      exact hq.valid x _ a (setReference_eq.mpr (.inl ⟨rfl,rfl⟩)) ha
        (hvalid (hb.symm.trans ho))
    · exact hq.valid x a₀ a (setReference_eq.mpr (.inr ⟨hx,ha₀⟩)) ha
        (hw.valid x a₀ ha₀ (ho₀.trans ho))
  victim x hx := by
    have hmem : x∈m'.threatContainer.threatList := by
      rw [hq.online.mem_iff]
      exact (hq.victim x hx).elim (hw.victim x) id
    by_cases hxr : x=r
    · cases b with
      | true => exact (hon x).mpr (.inl ⟨hxr,rfl⟩)
      | false => exact absurd (hxr ▸ hx) (hvictim rfl)
    · exact (hon x).mpr (.inr ⟨hxr,hmem⟩)

theorem forgetVictim_ne (m : ThreatManager F) (r : ℕ) :
    (m.forgetVictim r).currentVictim≠some r := by
  unfold ThreatManager.forgetVictim
  split
  · rintro ⟨⟩
  · next h => exact h

theorem mem_filter_ne (l : List ℕ) (r x : ℕ) {p : Prop} (hp : ¬p) :
    x∈l.filter (·≠r) ↔ (x=r ∧ p) ∨ (x≠r ∧ x∈l) := by
  rw [List.mem_filter,decide_eq_true_eq,and_comm]
  simp only [hp,and_false,false_or]

/-- What is in a list an entry was put at the end of. -/
theorem mem_append_one (l : List ℕ) (r x : ℕ) {p : Prop} (hp : p) :
    x∈l++[r] ↔ (x=r ∧ p) ∨ (x≠r ∧ x∈l) := by
  rw [List.mem_append,List.mem_singleton]
  by_cases hx : x=r
  · simp only [hx,or_true,true_and,hp,true_or]
  · simp only [hx,or_false,false_and,false_or,ne_eq,not_false_iff,true_and]

/-- An entry taken out of the first list and put at the end of the second is there once. -/
theorem nodup_moveOut {on off : List ℕ} (h : (on++off).Nodup) (hr : r∉off) :
    (on.filter (·≠r)++(off++[r])).Nodup := by
  obtain ⟨hon,hoff,hdisj⟩ := List.nodup_append'.mp h
  rw [← List.append_assoc,List.nodup_append']
  refine ⟨?_,List.nodup_singleton r,?_⟩
  · refine List.nodup_append'.mpr ⟨hon.filter _,hoff,fun x hx => ?_⟩
    exact hdisj (List.mem_of_mem_filter hx)
  intro x hx hxr
  rw [List.mem_singleton] at hxr
  subst hxr
  rcases List.mem_append.mp hx with hf | ho
  · exact absurd rfl (of_decide_eq_true (List.mem_filter.mp hf).2)
  · exact hr ho

/-- So is one that goes from the second list to the end of the first. -/
theorem nodup_moveIn {on off : List ℕ} (h : (on++off).Nodup) (hr : r∉on) :
    ((on++[r])++off.filter (·≠r)).Nodup := by
  have hswap : (off++on).Nodup := List.nodup_append_comm.mp h
  exact List.nodup_append_comm.mp (nodup_moveOut hswap hr)

variable [LT F] [LE F] [DecidableLT F] [DecidableLE F] (o : FloatOps F)

/-- The event of a reference that goes offline moves it to the offline list. -/
theorem Wellformed.goOffline (hw : Wellformed m) (hr : m.references r=some ref)
    (ho : ref.online=true) (hq : Quiet (m.setReference r { ref with online := false }) m')
    {ref' : HostileReference F} (ho' : ref'.online=false) (fValue : F) :
    Wellformed (m'.onEvent o r ref' fValue .onlineStatus) := by
  have hq' := hq.trans (forgetVictim_quiet m' r)
  have hoff : r∉(m'.forgetVictim r).threatOfflineContainer.threatList :=
    hq'.offline ▸ hw.not_offline hr ho
  have h := hw.move (b := false) hr (by rintro ⟨⟩) hq' _ _
    (fun x => mem_filter_ne (m'.forgetVictim r).threatContainer.threatList r x (by rintro ⟨⟩))
    (fun x => mem_append_one (m'.forgetVictim r).threatOfflineContainer.threatList r x rfl)
    (nodup_moveOut (hq'.nodup hw.nodup) hoff) fun _ => forgetVictim_ne m' r
  have he : m'.onEvent o r ref' fValue .onlineStatus=_ := if_pos ho'
  exact he ▸ h

/-- The event of a reference that comes online moves it to the online list. -/
theorem Wellformed.goOnline (hw : Wellformed m) (hr : m.references r=some ref)
    (ho : ref.online=false) (hvalid : ref.valid=true)
    (hq : Quiet (m.setReference r { ref with online := true }) m')
    {ref' : HostileReference F} (ho' : ref'.online=true) (fValue : F) :
    Wellformed (m'.onEvent o r ref' fValue .onlineStatus) := by
  obtain ⟨m'',he,hq''⟩ : ∃ m'', m'.onEvent o r ref' fValue .onlineStatus=
      { m'' with
        threatContainer := m''.threatContainer.addReference r
        threatOfflineContainer := m''.threatOfflineContainer.remove r } ∧ Quiet m' m'' := by
    refine ⟨_,if_neg (by rw [ho']; exact Bool.noConfusion),?_⟩
    split
    · split
      · exact setDirty_quiet m' true
      · exact Quiet.refl m'
    · exact Quiet.refl m'
  have hq' := hq.trans hq''
  have hon : r∉m''.threatContainer.threatList := by
    rw [hq'.online.mem_iff]
    exact hw.not_online hr ho
  rw [he]
  exact hw.move (b := true) hr (fun _ => hvalid) hq' _ _
    (fun x => mem_append_one m''.threatContainer.threatList r x rfl)
    (fun x => mem_filter_ne m''.threatOfflineContainer.threatList r x (by rintro ⟨⟩))
    (nodup_moveIn (hq'.nodup hw.nodup) hon) (by rintro ⟨⟩)

end Moves

section Finding

variable {m : ThreatManager F}

/-- A status that says online is for a reference with a target. -/
theorem statusOf_valid (w : World F) {ref : HostileReference F} (h : (w.statusOf ref).1=true) :
    ref.valid=true := by
  unfold World.statusOf at h
  dsimp only at h
  split at h
  · next hc => exact hc.1
  · cases h

theorem findReference_some {victim r : ℕ} (h : m.findReference victim=some r) :
    ∃ ref, m.references r=some ref ∧ ref.unitGuid=victim := by
  have hfor : m.references.isFor victim r=true := by
    rcases Option.or_eq_some_iff.mp h with hon | ⟨-,hoff⟩
    · exact List.find?_some hon
    · exact List.find?_some hoff
  simp only [References.isFor,Option.any_eq_true,decide_eq_true_eq] at hfor
  exact hfor

/-- A reference that the unit's own list holds is the unit's, and is linked. -/
theorem hatedBy_some {m : ThreatManager F} {victim r : ℕ} (h : m.hatedBy victim=some r) :
    ∃ ref,m.references r=some ref ∧ ref.unitGuid=victim ∧ ref.valid=true := by
  obtain ⟨hfind,hvalid⟩ := Option.filter_eq_some_iff.mp h
  obtain ⟨ref,hr,hguid⟩ := findReference_some hfind
  rw [hr,Option.any_some] at hvalid
  exact ⟨ref,hr,hguid,hvalid⟩

theorem Wellformed.findReference_none (hw : Wellformed m) {victim : ℕ}
    (h : m.findReference victim=none) {r : ℕ} {ref : HostileReference F}
    (hr : m.references r=some ref) : ref.unitGuid≠victim := by
  intro hu
  obtain ⟨hon,hoff⟩ := Option.or_eq_none_iff.mp h
  have hfor : m.references.isFor victim r=true := by
    simp only [References.isFor,hr,Option.any_some,hu,decide_true]
  rcases List.mem_append.mp (hw.listed hr) with hmem | hmem
  · exact List.find?_eq_none.mp hon r hmem hfor
  · exact List.find?_eq_none.mp hoff r hmem hfor

theorem newReference_eq (o : FloatOps F) {victim x : ℕ} {a : HostileReference F} :
    (m.newReference o victim).references x=some a ↔
      (x=m.nextReference ∧ ⟨o.ofInt 0,victim,true,true,true⟩=a) ∨
        (x≠m.nextReference ∧ m.references x=some a) :=
  setReference_eq (m := m)

theorem Wellformed.newReference_status (hw : Wellformed m) (o : FloatOps F) (victim x : ℕ)
    (s : Bool) :
    (∃ a, (m.newReference o victim).references x=some a ∧ a.online=s) ↔
      (x=m.nextReference ∧ s=true) ∨ ∃ a, m.references x=some a ∧ a.online=s := by
  constructor
  · rintro ⟨a,ha,hs⟩
    rcases (newReference_eq o).mp ha with ⟨hx,he⟩ | ⟨-,ha₀⟩
    · subst he
      exact .inl ⟨hx,hs.symm⟩
    · exact .inr ⟨a,ha₀,hs⟩
  · rintro (⟨hx,hs⟩ | ⟨a,ha,hs⟩)
    · exact ⟨_,(newReference_eq o).mpr (.inl ⟨hx,rfl⟩),hs.symm⟩
    · exact ⟨a,(newReference_eq o).mpr (.inr ⟨(hw.fresh x a ha).ne,ha⟩),hs⟩

/-- A new reference keeps the containers in order. -/
theorem Wellformed.newReference (hw : Wellformed m) (o : FloatOps F) {victim : ℕ}
    (h : m.findReference victim=none) :
    Wellformed (m.newReference o victim) where
  nodup := by
    have hfree : m.nextReference∉
        m.threatContainer.threatList++m.threatOfflineContainer.threatList := by
      rw [List.mem_append,hw.online,hw.offline]
      rintro (⟨a,ha,-⟩ | ⟨a,ha,-⟩) <;> exact absurd (hw.fresh _ a ha) (Nat.lt_irrefl _)
    simp only [ThreatManager.newReference,ThreatContainer.addReference,List.append_assoc,
      List.singleton_append]
    exact List.nodup_middle.mpr (List.nodup_cons.mpr ⟨hfree,hw.nodup⟩)
  online x := by
    refine Iff.trans ?_ (hw.newReference_status o victim x true).symm
    rw [← hw.online,eq_self,and_true,or_comm]
    exact List.mem_append.trans (or_congr_right List.mem_singleton)
  offline x := by
    refine Iff.trans ?_ (hw.newReference_status o victim x false).symm
    rw [← hw.offline,iff_false_intro Bool.false_ne_true,and_false,false_or]
    rfl
  unique x y a c ha hc hac := by
    rcases (newReference_eq o).mp ha with ⟨hx,rfl⟩ | ⟨-,ha₀⟩ <;>
      rcases (newReference_eq o).mp hc with ⟨hy,rfl⟩ | ⟨-,hc₀⟩
    · exact hx.trans hy.symm
    · exact absurd hac.symm (hw.findReference_none h hc₀)
    · exact absurd hac (hw.findReference_none h ha₀)
    · exact hw.unique x y a c ha₀ hc₀ hac
  fresh x a ha := by
    rcases (newReference_eq o).mp ha with ⟨hx,-⟩ | ⟨-,ha₀⟩
    · exact hx ▸ Nat.lt_succ_self _
    · exact Nat.lt_succ_of_lt (hw.fresh x a ha₀)
  valid x a ha ho := by
    rcases (newReference_eq o).mp ha with ⟨-,rfl⟩ | ⟨-,ha₀⟩
    · rfl
    · exact hw.valid x a ha₀ ho
  victim x hx := List.mem_append_left _ (hw.victim x hx)

end Finding

section Links

variable (w : World F) {m m' m'' : ThreatManager F} {given given' : Set ℕ}

/-- A part of the references that setting one of them leaves alone. -/
theorem map_setReference {β : Type} (g : HostileReference F → β) {r : ℕ}
    {ref ref' : HostileReference F} (hr : m.references r=some ref) (hg : g ref'=g ref) (x : ℕ) :
    ((m.setReference r ref').references x).map g=(m.references x).map g := by
  dsimp only [ThreatManager.setReference]
  by_cases hx : x=r
  · rw [hx,Function.update_self,hr,Option.map_some,Option.map_some,hg]
  · rw [Function.update_of_ne hx]

/-- The unit of a reference, and whether its link holds or is made again. -/
def World.link (ref : HostileReference F) : ℕ×Bool :=
  (ref.unitGuid,ref.valid || w.getUnit ref.unitGuid)

/-- The links of the references at all addresses. -/
def ThreatManager.links (m : ThreatManager F) (x : ℕ) : Option (ℕ×Bool) :=
  (m.references x).map w.link

/-- The units that there are references for. -/
def ThreatManager.units (m : ThreatManager F) : Set ℕ :=
  { u | ∃ r ref,m.references r=some ref ∧ ref.unitGuid=u }

/-- What an operation does that gives threat: the containers are in order, the units that are given
threat have references, and what units are linked stays. -/
structure Grown (m m' : ThreatManager F) (given : Set ℕ) : Prop where
  wellformed : Wellformed m'
  units : m'.units=m.units ∪ given
  linked : ∀ u,m'.Linked w u ↔ m.Linked w u

variable {w}

theorem mem_units {u : ℕ} :
    u∈m.units ↔ ∃ r,(m.references r).map HostileReference.unitGuid=some u := by
  simp only [ThreatManager.units,Set.mem_ofPred_eq,Option.map_eq_some_iff]

theorem units_eq (h : ∀ x,(m'.references x).map HostileReference.unitGuid=
    (m.references x).map HostileReference.unitGuid) : m'.units=m.units := by
  ext u
  simp only [mem_units,h]

theorem units_of_links (hlinks : ∀ x,m'.links w x=m.links w x) : m'.units=m.units :=
  units_eq fun x => by
    have hunit := congrArg (Option.map Prod.fst) (hlinks x)
    rwa [ThreatManager.links,ThreatManager.links,Option.map_map,Option.map_map] at hunit

theorem linked_of_links (hlinks : ∀ x,m'.links w x=m.links w x) {u : ℕ} (hu : m.Linked w u) :
    m'.Linked w u := by
  intro r ref' hr' hg
  have hlink := hlinks r
  unfold ThreatManager.links at hlink
  rw [hr'] at hlink
  obtain ⟨ref,hr,hsame⟩ := Option.map_eq_some_iff.mp hlink.symm
  obtain ⟨hguid,hvalid⟩ := Prod.mk.inj hsame
  have hhold := hu r ref hr (hguid.trans hg)
  rw [← hg,← Bool.or_eq_true,← hvalid,Bool.or_eq_true]
  exact (hguid.trans hg).symm ▸ hhold

/-- Where the links stay, nobody is given threat. -/
theorem Grown.of_links (hw : Wellformed m') (hlinks : ∀ x,m'.links w x=m.links w x) :
    Grown w m m' ∅ :=
  ⟨hw,by rw [units_of_links hlinks,Set.union_empty],
    fun _ => ⟨linked_of_links fun x => (hlinks x).symm,linked_of_links hlinks⟩⟩

theorem Grown.trans (h : Grown w m m' given) (h' : Grown w m' m'' given') :
    Grown w m m'' (given ∪ given') :=
  ⟨h'.wellformed,by rw [h'.units,h.units,Set.union_assoc],
    fun u => (h'.linked u).trans (h.linked u)⟩

theorem Wellformed.linked_iff (hw : Wellformed m) {r : ℕ} {ref : HostileReference F}
    (hr : m.references r=some ref) :
    m.Linked w ref.unitGuid ↔ (ref.valid || w.getUnit ref.unitGuid)=true := by
  rw [Bool.or_eq_true]
  refine ⟨fun h => h r ref hr rfl,fun h r' ref' hr' hg => ?_⟩
  obtain rfl := hw.unique r' r ref' ref hr' hr hg
  rw [hr] at hr'
  exact Option.some.inj hr' ▸ h

theorem links_relink (m : ThreatManager F) (r x : ℕ) : (m.relink w r).links w x=m.links w x := by
  unfold ThreatManager.relink
  split
  · rfl
  next ref hr =>
  split
  · next hunit =>
    refine map_setReference w.link hr ?_ x
    unfold World.link
    rw [hunit.2,Bool.or_true,Bool.or_true]
  · rfl

variable [LE F] (o : FloatOps F) {victim unit : ℕ} {threat : F}

theorem Given.of_linked (hlinked : ∀ u,m.Linked w u → m'.Linked w u)
    (h : Given o w m victim threat unit) : Given o w m' victim threat unit := by
  induction h with
  | unit victim threat => exact .unit victim threat
  | master hlink hthreat howner halive _ ih =>
    exact .master (hlinked _ hlink) hthreat howner halive ih

theorem Grown.given_iff (h : Grown w m m' given) :
    Given o w m' victim threat unit ↔ Given o w m victim threat unit :=
  ⟨Given.of_linked o fun u => (h.linked u).mp,Given.of_linked o fun u => (h.linked u).mpr⟩

end Links

section Operations

variable [LT F] [LE F] [DecidableLT F] [DecidableLE F]
variable (o : FloatOps F) (w : World F) {m m' : ThreatManager F} {given : Set ℕ}

/-- Setting the status of a reference keeps the containers in order. -/
theorem Wellformed.setOnlineOfflineState (hw : Wellformed m) (r : ℕ) (isOnline : Bool)
    (hvalid : ∀ ref, m.references r=some ref → isOnline=true → ref.valid=true) :
    Wellformed (m.setOnlineOfflineState o w r isOnline) := by
  unfold ThreatManager.setOnlineOfflineState
  split
  · exact hw
  next ref hr =>
  split
  · next hne =>
    cases isOnline with
    | true =>
      have ho : ref.online=false := by simpa using hne
      have hself := Function.update_self r (some { ref with online := true }) m.references
      refine (hw.goOnline o hr ho (hvalid ref hr rfl) (Quiet.refl _)
        (show ({ ref with online := true } : HostileReference F).online=true from rfl)
        (o.ofInt 0)).quiet ?_
      exact processThreatEvent_quiet o w hself .onlineStatus _
    | false =>
      have ho : ref.online=true := by simpa using hne
      have hq := setAccessibleState_quiet o w (m.setReference r { ref with online := false })
        r false
      obtain ⟨ref',hr',-,ho'⟩ := hq.moved_self
      refine (hw.goOffline o hr ho hq ho' (o.ofInt 0)).quiet ?_
      exact processThreatEvent_quiet o w hr' .onlineStatus _
  · exact hw

/-- Checking the status of a reference keeps the containers in order. -/
theorem Wellformed.updateOnlineStatus (hw : Wellformed m) (r : ℕ) :
    Wellformed (m.updateOnlineStatus o w r) := by
  unfold ThreatManager.updateOnlineStatus
  have hlink := hw.quiet (relink_quiet w m r)
  dsimp only
  split
  · exact hlink
  next ref hr =>
  have hq := setAccessibleState_quiet o w (m.relink w r) r (w.statusOf ref).2
  refine (hlink.quiet hq).setOnlineOfflineState o w r _ fun ref' hr' hon => ?_
  exact hq.valid r ref ref' hr hr' (statusOf_valid w hon)

/-- An event changes no reference. -/
theorem onEvent_references (r : ℕ) (ref : HostileReference F) (fValue : F)
    (type : UNIT_EVENT_TYPE) : (m.onEvent o r ref fValue type).references=m.references := by
  have hforget : (m.forgetVictim r).references=m.references := by
    unfold ThreatManager.forgetVictim
    split <;> rfl
  cases type with
  | threatChange =>
    dsimp only [ThreatManager.onEvent]
    split <;> rfl
  | onlineStatus =>
    dsimp only [ThreatManager.onEvent]
    split
    · exact hforget
    dsimp only
    split
    · split <;> rfl
    · rfl
  | removeFromList =>
    dsimp only [ThreatManager.onEvent]
    split <;> exact hforget
  | accessibleStatus => rfl

/-- Nor does choosing a target. -/
theorem getHostilTarget_references (m : ThreatManager F) :
    (m.getHostilTarget o w).1.references=m.references := by
  unfold ThreatManager.getHostilTarget
  dsimp only
  split <;> rfl

/-- Nor does what follows the `switch`. -/
theorem processThreatEvent_references (type : UNIT_EVENT_TYPE) (r : ℕ) (fValue : F) :
    (m.processThreatEvent o w type r fValue).references=m.references := by
  unfold ThreatManager.processThreatEvent
  split
  · rfl
  next ref hr =>
  dsimp only
  split
  · exact onEvent_references o r ref fValue type
  · split
    · exact (getHostilTarget_references o w _).trans (onEvent_references o r ref fValue type)
    · exact onEvent_references o r ref fValue type

section Parts

variable {β : Type} (g : HostileReference F → β)

variable (hacc : ∀ ref b,g { ref with accessible := b }=g ref)
  (hon : ∀ ref b,g { ref with online := b }=g ref)

include hacc in
/-- A part of the references that a change of the access leaves alone. -/
theorem map_setAccessibleState (r : ℕ) (isAccessible : Bool) (x : ℕ) :
    ((m.setAccessibleState o w r isAccessible).references x).map g=(m.references x).map g := by
  unfold ThreatManager.setAccessibleState
  split
  · rfl
  next ref hr =>
  split
  · rw [processThreatEvent_references]
    exact map_setReference g hr (hacc ref isAccessible) x
  · rfl

include hacc hon in
/-- A part that a change of the status leaves alone. -/
theorem map_setOnlineOfflineState (r : ℕ) (isOnline : Bool) (x : ℕ) :
    ((m.setOnlineOfflineState o w r isOnline).references x).map g=(m.references x).map g := by
  unfold ThreatManager.setOnlineOfflineState
  split
  · rfl
  next ref hr =>
  split
  · have hset := map_setReference g hr (hon ref isOnline) x
    rw [processThreatEvent_references]
    split
    · exact (map_setAccessibleState o w g hacc r false x).trans hset
    · exact hset
  · rfl

include hacc hon in
theorem map_updateOnlineStatus (r x : ℕ) :
    ((m.updateOnlineStatus o w r).references x).map g=((m.relink w r).references x).map g := by
  unfold ThreatManager.updateOnlineStatus
  dsimp only
  split
  · rfl
  next ref _ =>
  exact (map_setOnlineOfflineState o w g hacc hon r _ x).trans
    (map_setAccessibleState o w g hacc r _ x)

end Parts

theorem setOnlineOfflineState_self {r : ℕ} {ref : HostileReference F}
    (h : m.references r=some ref) (isOnline : Bool) :
    ∃ ref', (m.setOnlineOfflineState o w r isOnline).references r=some ref' ∧
      ref'.unitGuid=ref.unitGuid ∧ ref'.online=isOnline := by
  unfold ThreatManager.setOnlineOfflineState
  split
  · next hnone => rw [hnone] at h; cases h
  next ref₀ h₀ =>
  have he : ref₀=ref := Option.some.inj (h₀.symm.trans h)
  subst he
  by_cases hne : ref₀.online≠isOnline
  · rw [if_pos hne]
    extract_lets m₁ m₂
    have hq : Quiet m₁ m₂ := by
      dsimp only [m₂]
      split
      · exact setAccessibleState_quiet o w m₁ r false
      · exact Quiet.refl m₁
    obtain ⟨a,ha,hg,ho⟩ := hq.moved_self
    have hevent := onEvent_references o (m := m₂) r a (o.ofInt 0) .onlineStatus
    obtain ⟨b,hb,hgb,hob⟩ := (processThreatEvent_quiet o w ha .onlineStatus _).forth
      ((congrFun hevent r).trans ha)
    exact ⟨b,hb,hgb.trans hg,hob.trans ho⟩
  · rw [if_neg hne]
    exact ⟨ref₀,h,rfl,not_not.mp hne⟩

/-- A reference that loses its target is offline, and is for the same unit. -/
theorem invalidate_self {r : ℕ} {ref : HostileReference F} (h : m.references r=some ref) :
    ∃ ref', (m.invalidate o w r).references r=some ref' ∧ ref'.unitGuid=ref.unitGuid ∧
      ref'.online=false := by
  obtain ⟨ref',hr',hg,ho⟩ := setOnlineOfflineState_self o w h false
  unfold ThreatManager.invalidate
  dsimp only
  rw [hr']
  exact ⟨_,Function.update_self r _ _,hg,ho⟩

/-- Losing the target leaves every reference the one of its unit. -/
theorem map_invalidate (r x : ℕ) :
    ((m.invalidate o w r).references x).map HostileReference.unitGuid=
      (m.references x).map HostileReference.unitGuid := by
  have hoff := map_setOnlineOfflineState (m := m) o w HostileReference.unitGuid (fun _ _ => rfl)
    (fun _ _ => rfl) r false
  unfold ThreatManager.invalidate
  dsimp only
  split
  · exact hoff x
  next ref hr =>
  exact (map_setReference HostileReference.unitGuid hr
    (rfl : HostileReference.unitGuid { ref with valid := false }=ref.unitGuid) x).trans (hoff x)

/-- Losing the target of a reference keeps the containers in order. -/
theorem Wellformed.invalidate (hw : Wellformed m) (r : ℕ) : Wellformed (m.invalidate o w r) := by
  have hoff := hw.setOnlineOfflineState o w r false fun _ _ => by rintro ⟨⟩
  unfold ThreatManager.invalidate
  dsimp only
  split
  · exact hoff
  next ref hr =>
  refine hoff.samePlaces (setReference_places hr rfl) fun x a ha hon => ?_
  rcases setReference_eq.mp ha with ⟨-,rfl⟩ | ⟨-,ha₀⟩
  · cases hm : m.references r with
    | none => simp only [ThreatManager.setOnlineOfflineState,hm,reduceCtorEq] at hr
    | some ref₀ =>
      obtain ⟨ref',hr',-,ho⟩ := setOnlineOfflineState_self o w hm false
      have he : ref=ref' := Option.some.inj (hr.symm.trans hr')
      rw [he,ho] at hon
      cases hon
  · exact hoff.valid x a ha₀ hon

variable {w}

/-- The link of a reference after its status has been checked. -/
theorem valid_updateOnlineStatus {r : ℕ} {ref : HostileReference F} (hr : m.references r=some ref) :
    ((m.updateOnlineStatus o w r).references r).any HostileReference.valid=
      (ref.valid || w.getUnit ref.unitGuid) := by
  have hmap := map_updateOnlineStatus o w (m := m) HostileReference.valid (fun _ _ => rfl)
    (fun _ _ => rfl) r r
  have hrelink : ((m.relink w r).references r).map HostileReference.valid=
      some (ref.valid || w.getUnit ref.unitGuid) := by
    unfold ThreatManager.relink
    rw [hr]
    dsimp only
    cases hvalid : ref.valid <;> cases hunit : w.getUnit ref.unitGuid <;>
      simp [ThreatManager.setReference,hr,hvalid]
  rw [hrelink] at hmap
  obtain ⟨ref',hr',hvalid⟩ := Option.map_eq_some_iff.mp hmap
  rw [hr',Option.any_some,hvalid]

theorem links_setOnlineOfflineState (m : ThreatManager F) (r : ℕ) (isOnline : Bool) (x : ℕ) :
    (m.setOnlineOfflineState o w r isOnline).links w x=m.links w x :=
  map_setOnlineOfflineState o w w.link (fun _ _ => rfl) (fun _ _ => rfl) r isOnline x

theorem links_updateOnlineStatus (m : ThreatManager F) (r x : ℕ) :
    (m.updateOnlineStatus o w r).links w x=m.links w x :=
  (map_updateOnlineStatus o w w.link (fun _ _ => rfl) (fun _ _ => rfl) r x).trans
    (links_relink m r x)

theorem Wellformed.addReferenceThreat {assist : ℕ → ThreatManager F → ThreatManager F}
    (hw : Wellformed m) {r : ℕ} {ref : HostileReference F} (hr : m.references r=some ref)
    (hassist : ∀ u m',Wellformed m' → w.charmerOrOwner ref.unitGuid=some u →
      Grown w m' (assist u m') { x | Given o w m' u (o.ofInt 1) x }) (modThreat : F) :
    Grown w m (m.addReferenceThreat o assist w r modThreat)
      { x | Given o w m ref.unitGuid modThreat x } := by
  unfold ThreatManager.addReferenceThreat
  split
  · next hnone => rw [hnone] at hr; cases hr
  next ref₀ hr₀ =>
  obtain rfl : ref=ref₀ := Option.some.inj (hr.symm.trans hr₀)
  extract_lets m₁ m₂ isValid m₃
  have hw₁ : Wellformed m₁ := hw.quiet (setReference_quiet hr rfl id)
  have hr₁ : m₁.references r=some { ref with threat := o.add ref.threat modThreat } :=
    Function.update_self r _ _
  have hlinks₁ : ∀ x,m₁.links w x=m.links w x := map_setReference w.link hr
    (rfl : w.link { ref with threat := o.add ref.threat modThreat }=w.link ref)
  have hlinked := hw.linked_iff (w := w) hr
  -- a reference that is offline has its status checked, which makes its link again
  obtain ⟨hw₂,hlinks₂,hvalid⟩ : Wellformed m₂ ∧ (∀ x,m₂.links w x=m.links w x) ∧
      (isValid=true ↔ m.Linked w ref.unitGuid) := by
    dsimp only [isValid,m₂]
    split
    · exact ⟨hw₁.updateOnlineStatus o w r,
        fun x => (links_updateOnlineStatus o m₁ r x).trans (hlinks₁ x),
        by rw [valid_updateOnlineStatus o hr₁,hlinked]⟩
    · next honline =>
      have hvalid := hw.valid r ref hr (Bool.eq_true_of_not_eq_false honline)
      refine ⟨hw₁,hlinks₁,?_⟩
      rw [hr₁,Option.any_some,hlinked,hvalid,Bool.true_or]
  have hsame := Grown.of_links hw₂ hlinks₂
  have hunit : ref.unitGuid∈m.units := ⟨r,ref,hr,rfl⟩
  have hself : (∀ x,Given o w m ref.unitGuid modThreat x → x=ref.unitGuid) →
      Grown w m m₂ { x | Given o w m ref.unitGuid modThreat x } := by
    refine fun honly => ⟨hw₂,?_,hsame.linked⟩
    rw [hsame.units,Set.union_empty,Set.union_eq_left.mpr]
    exact fun x hx => honly x hx ▸ hunit
  have hgrown : Grown w m m₃ { x | Given o w m ref.unitGuid modThreat x } := by
    dsimp only [m₃]
    split
    · next hcond =>
      cases howner : w.charmerOrOwner ref.unitGuid with
      | none =>
        refine hself fun x hx => ?_
        cases hx with
        | unit => rfl
        | master _ _ howner' => rw [howner] at howner'; cases howner'
      | some victimOwner =>
        dsimp only
        split
        · next halive =>
          have hmaster := hsame.trans (hassist victimOwner m₂ hw₂ howner)
          refine ⟨hmaster.wellformed,?_,hmaster.linked⟩
          rw [hmaster.units,Set.empty_union]
          ext x
          constructor
          · rintro (hx | hx)
            · exact .inl hx
            · exact .inr (.master (hvalid.mp hcond.1) hcond.2 howner halive
                ((hsame.given_iff o).mp hx))
          · rintro (hx | hx)
            · exact .inl hx
            · cases hx with
              | unit => exact .inl hunit
              | master _ _ howner' _ hgiven =>
                rw [howner] at howner'
                exact .inr ((hsame.given_iff o).mpr (Option.some.inj howner' ▸ hgiven))
        · next hdead =>
          refine hself fun x hx => ?_
          cases hx with
          | unit => rfl
          | master _ _ howner' halive =>
            rw [howner] at howner'
            exact absurd (Option.some.inj howner' ▸ halive) hdead
    · next hcond =>
      refine hself fun x hx => ?_
      cases hx with
      | unit => rfl
      | master hlink hthreat => exact absurd ⟨hvalid.mpr hlink,hthreat⟩ hcond
  split
  · have hevent := Grown.of_links (hgrown.wellformed.quiet (threatChange_quiet o w m₃ r modThreat))
      fun x => congrArg (Option.map w.link) (congrFun (processThreatEvent_references o w
        .threatChange r modThreat) x)
    have hboth := hgrown.trans hevent
    rwa [Set.union_empty] at hboth
  · exact hgrown

/-- `_addThreat`, with the threat that a living master is given. -/
theorem Wellformed.addThreatVia {assist : ℕ → ThreatManager F → ThreatManager F}
    (hw : Wellformed m) {victim : ℕ}
    (hassist : ∀ u m',Wellformed m' → w.charmerOrOwner victim=some u →
      Grown w m' (assist u m') { x | Given o w m' u (o.ofInt 1) x }) (threat : F) :
    Grown w m (m.addThreatVia o assist w victim threat) { x | Given o w m victim threat x } := by
  unfold ThreatManager.addThreatVia
  split
  · next r hfind =>
    obtain ⟨ref,hr,rfl⟩ := findReference_some hfind
    exact hw.addReferenceThreat o hr hassist threat
  next hnone =>
  dsimp only
  have hnew := hw.newReference o hnone
  have hfresh : Grown w m (m.newReference o victim) {victim} := by
    refine ⟨hnew,?_,fun u => ⟨fun h r ref hr hg => ?_,fun h r ref hr hg => ?_⟩⟩
    · ext u
      constructor
      · rintro ⟨r,ref,hr,hg⟩
        rcases (newReference_eq o).mp hr with ⟨-,rfl⟩ | ⟨-,hr⟩
        · exact .inr hg.symm
        · exact .inl ⟨r,ref,hr,hg⟩
      · rintro (⟨r,ref,hr,hg⟩ | rfl)
        · exact ⟨r,ref,(newReference_eq o).mpr (.inr ⟨(hw.fresh r ref hr).ne,hr⟩),hg⟩
        · exact ⟨_,_,(newReference_eq o).mpr (.inl ⟨rfl,rfl⟩),rfl⟩
    · exact h r ref ((newReference_eq o).mpr (.inr ⟨(hw.fresh r ref hr).ne,hr⟩)) hg
    · rcases (newReference_eq o).mp hr with ⟨-,rfl⟩ | ⟨-,hr⟩
      · exact .inl rfl
      · exact h r ref hr hg
  obtain ⟨r,hr⟩ : ∃ r,(m.newReference o victim).threatContainer.getReferenceByTarget
      (m.newReference o victim).references victim=some r := by
    refine Option.isSome_iff_exists.mp (List.find?_isSome.mpr ⟨m.nextReference,?_,?_⟩)
    · exact List.mem_append_right _ (List.mem_singleton_self _)
    · simp [References.isFor,ThreatManager.newReference]
  obtain ⟨ref,hr',hg⟩ := @findReference_some _ (m.newReference o victim) victim r
    (Option.or_eq_some_iff.mpr (.inl hr))
  subst hg
  have hboth := hfresh.trans (hnew.addReferenceThreat o hr' hassist threat)
  have hgiven : ({ref.unitGuid} ∪
      { x | Given o w (m.newReference o ref.unitGuid) ref.unitGuid threat x } : Set ℕ)=
      { x | Given o w m ref.unitGuid threat x } := by
    ext x
    rw [Set.mem_union,Set.mem_singleton_iff,Set.mem_ofPred_eq,Set.mem_ofPred_eq,hfresh.given_iff o]
    exact or_iff_right_of_imp fun hx => hx ▸ .unit _ _
  rw [hgiven] at hboth
  rw [hr]
  dsimp only
  split
  · have hoff := hboth.trans (Grown.of_links (hboth.wellformed.setOnlineOfflineState o w
      m.nextReference false fun _ _ => by rintro ⟨⟩)
      (links_setOnlineOfflineState o _ m.nextReference false))
    rwa [Set.union_empty] at hoff
  · exact hboth

/-- So does `_addThreat` with the threat for all the masters. -/
theorem Wellformed.addThreatTo (hw : Wellformed m) (victim : ℕ) (threat : F) :
    Grown w m (m.addThreatTo o w victim threat) { x | Given o w m victim threat x } := by
  -- by induction on how many masters the victim has above it
  induction hn : w.depth victim using Nat.strong_induction_on generalizing m victim threat with
  | h n ih =>
    rw [ThreatManager.addThreatTo]
    refine hw.addThreatVia o (fun u m' hw' howner => ?_) threat
    have hlt := w.depth_lt victim u howner
    rw [if_pos hlt]
    exact ih (w.depth u) (hn ▸ hlt) hw' u _ rfl

theorem Wellformed.doAddThreat (hw : Wellformed m) (victim : ℕ) (threat : F) :
    Grown w m (m.doAddThreat o w victim threat) (doGiven o w m victim threat) := by
  unfold ThreatManager.doAddThreat doGiven
  dsimp only
  split_ifs
  · cases w.redirectThreatTarget victim with
    | none => exact hw.addThreatTo o victim threat
    | some redirectTarget =>
      have hfirst := hw.addThreatTo (w := w) o redirectTarget
        (o.calculatePct threat (w.redirectThreatPercent victim))
      have hboth := hfirst.trans (hfirst.wellformed.addThreatTo o victim
        (o.sub threat (o.calculatePct threat (w.redirectThreatPercent victim))))
      simp only [hfirst.given_iff o] at hboth
      exact hboth
  · exact hw.addThreatTo o victim threat

/-- The threat that a reference gets outside `_addThreat`. -/
theorem Wellformed.addOwnThreat (hw : Wellformed m) {r : ℕ} {ref : HostileReference F}
    (hr : m.references r=some ref) (modThreat : F) :
    Grown w m (m.addReferenceThreat o (fun u m => m.addThreatTo o w u (o.ofInt 1)) w r modThreat)
      { x | Given o w m ref.unitGuid modThreat x } :=
  hw.addReferenceThreat o hr (fun u _ hw' _ => hw'.addThreatTo o u _) modThreat

end Operations

section Deleting

variable {m : ThreatManager F}

theorem deleteReference_eq {r x : ℕ} {a : HostileReference F} :
    (m.deleteReference r).references x=some a ↔ x≠r ∧ m.references x=some a := by
  unfold ThreatManager.deleteReference
  by_cases hx : x=r
  · subst hx
    simp only [Function.update_self,reduceCtorEq,ne_eq,not_true,false_and]
  · simp only [Function.update_of_ne hx,ne_eq,hx,not_false_iff,true_and]

theorem Quiet.deleteReference {m' : ThreatManager F} (h : Quiet m m') (r : ℕ) :
    Quiet (m.deleteReference r) (m'.deleteReference r) where
  online := h.online
  offline := h.offline
  references x := by
    unfold ThreatManager.deleteReference
    by_cases hx : x=r
    · subst hx
      simp only [Function.update_self]
    · simp only [Function.update_of_ne hx]
      exact h.references x
  valid x a b ha hb :=
    h.valid x a b (deleteReference_eq.mp ha).2 (deleteReference_eq.mp hb).2
  nextReference := h.nextReference
  owner := h.owner
  victim := h.victim

/-- Deleting a reference that was taken off the offline list keeps the containers in order. -/
theorem Wellformed.deleteReference (hw : Wellformed m) {r : ℕ} {ref : HostileReference F}
    (hr : m.references r=some ref) (ho : ref.online=false) :
    Wellformed ({ m with
      threatOfflineContainer := m.threatOfflineContainer.remove r }.deleteReference r) where
  nodup := by
    obtain ⟨hon,hoff,hdisj⟩ := List.nodup_append'.mp hw.nodup
    refine List.nodup_append'.mpr ⟨hon,hoff.filter _,fun x hx hmem => ?_⟩
    exact hdisj hx (List.mem_of_mem_filter hmem)
  online x := by
    refine (hw.online x).trans ⟨?_,?_⟩
    · rintro ⟨a,ha,hon⟩
      refine ⟨a,deleteReference_eq.mpr ⟨?_,ha⟩,hon⟩
      rintro rfl
      rw [hr] at ha
      cases ha
      rw [ho] at hon
      cases hon
    · rintro ⟨a,ha,hon⟩
      exact ⟨a,(deleteReference_eq.mp ha).2,hon⟩
  offline x := by
    refine List.mem_filter.trans ?_
    rw [hw.offline,decide_eq_true_eq]
    constructor
    · rintro ⟨⟨a,ha,hoff⟩,hne⟩
      exact ⟨a,deleteReference_eq.mpr ⟨hne,ha⟩,hoff⟩
    · rintro ⟨a,ha,hoff⟩
      exact ⟨⟨a,(deleteReference_eq.mp ha).2,hoff⟩,(deleteReference_eq.mp ha).1⟩
  unique x y a b ha hb :=
    hw.unique x y a b (deleteReference_eq.mp ha).2 (deleteReference_eq.mp hb).2
  fresh x a ha := hw.fresh x a (deleteReference_eq.mp ha).2
  valid x a ha := hw.valid x a (deleteReference_eq.mp ha).2
  victim := hw.victim

theorem Wellformed.units_deleteReference (hw : Wellformed m) {m' : ThreatManager F} {r : ℕ}
    {ref : HostileReference F} (hr : m.references r=some ref)
    (hmap : ∀ x,(m'.references x).map HostileReference.unitGuid=
      (m.references x).map HostileReference.unitGuid) :
    (m'.deleteReference r).units=m.units \ {ref.unitGuid} := by
  ext u
  rw [← units_eq hmap,Set.mem_sdiff,Set.mem_singleton_iff]
  have hguid : ∀ x a,m'.references x=some a → (a.unitGuid=ref.unitGuid ↔ x=r) := by
    intro x a ha
    have hx := hmap x
    rw [ha] at hx
    obtain ⟨a₀,ha₀,hg⟩ := Option.map_eq_some_iff.mp hx.symm
    constructor
    · exact fun he => hw.unique x r a₀ ref ha₀ hr (hg.trans he)
    · rintro rfl
      rw [hr] at ha₀
      exact hg.symm.trans (Option.some.inj ha₀ ▸ rfl)
  constructor
  · rintro ⟨x,a,ha,rfl⟩
    obtain ⟨hne,ha₀⟩ := deleteReference_eq.mp ha
    exact ⟨⟨x,a,ha₀,rfl⟩,fun he => hne ((hguid x a ha₀).mp he)⟩
  · rintro ⟨⟨x,a,ha,rfl⟩,hne⟩
    exact ⟨x,a,deleteReference_eq.mpr ⟨fun he => hne ((hguid x a ha).mpr he),ha⟩,rfl⟩

theorem foldl_delete (refs : References F) (rs : List ℕ) (x : ℕ) :
    rs.foldl (fun refs r => Function.update refs r none) refs x=
      if x∈rs then none else refs x := by
  induction rs generalizing refs with
  | nil => rfl
  | cons r rs ih =>
    rw [List.foldl_cons,ih]
    by_cases hx : x=r
    · subst hx
      simp only [Function.update_self,List.mem_cons_self,if_true,ite_self]
    · simp only [Function.update_of_ne hx,List.mem_cons,hx,false_or]

theorem Wellformed.clearReferences_none (hw : Wellformed m) (x : ℕ) :
    m.clearReferences.references x=none := by
  refine (foldl_delete _ m.threatOfflineContainer.threatList x).trans ?_
  split
  · rfl
  next hoff =>
  refine (foldl_delete _ m.threatContainer.threatList x).trans ?_
  split
  · rfl
  next hon =>
  cases hx : m.references x with
  | none => rfl
  | some a => exact absurd (hw.listed hx) (List.not_mem_append hon hoff)

/-- Nothing is at any address of a cleared manager. -/
theorem Wellformed.clearReferences_absurd (hw : Wellformed m) {p : HostileReference F → Prop}
    {x : ℕ} : ¬∃ a, m.clearReferences.references x=some a ∧ p a := by
  rintro ⟨a,ha,-⟩
  rw [hw.clearReferences_none] at ha
  cases ha

/-- Clearing a manager leaves it in order. -/
theorem Wellformed.clearReferences (hw : Wellformed m) : Wellformed m.clearReferences where
  nodup := List.nodup_nil
  online x := iff_of_false List.not_mem_nil hw.clearReferences_absurd
  offline x := iff_of_false List.not_mem_nil hw.clearReferences_absurd
  unique x y a b ha := by rw [hw.clearReferences_none] at ha; cases ha
  fresh x a ha := by rw [hw.clearReferences_none] at ha; cases ha
  valid x a ha := by rw [hw.clearReferences_none] at ha; cases ha
  victim := (by rintro _ ⟨⟩)

variable [LT F] [LE F] [DecidableLT F] [DecidableLE F] (o : FloatOps F) (w : World F)

/-- Removing a reference keeps the containers in order. -/
theorem Wellformed.removeReference (hw : Wellformed m) (r : ℕ) :
    Wellformed (m.removeReference o w r) := by
  unfold ThreatManager.removeReference
  split
  · exact hw
  next ref hr =>
  obtain ⟨ref',hr',-,ho'⟩ := invalidate_self o w hr
  have hinv := (hw.invalidate o w r).quiet (forgetVictim_quiet (m.invalidate o w r) r)
  have hr'' : ((m.invalidate o w r).forgetVictim r).references r=some ref' := by
    unfold ThreatManager.forgetVictim
    split <;> exact hr'
  have hevent := processThreatEvent_quiet o w hr' .removeFromList (o.ofInt 0)
  have hswitch : (m.invalidate o w r).onEvent o r ref' (o.ofInt 0) .removeFromList=_ :=
    if_neg (by rw [ho']; exact Bool.false_ne_true)
  rw [hswitch] at hevent
  exact (hinv.deleteReference hr'' ho').quiet (hevent.deleteReference r)

theorem Wellformed.units_removeReference (hw : Wellformed m) {r : ℕ} {ref : HostileReference F}
    (hr : m.references r=some ref) :
    (m.removeReference o w r).units=m.units \ {ref.unitGuid} := by
  unfold ThreatManager.removeReference
  rw [hr]
  refine hw.units_deleteReference hr fun x => ?_
  rw [processThreatEvent_references]
  exact map_invalidate o w r x

end Deleting

theorem wellformed_new (owner : ℕ) : Wellformed (ThreatManager.new (F := F) owner) where
  nodup := List.nodup_nil
  online _ := iff_of_false List.not_mem_nil (by rintro ⟨a,⟨⟩,h⟩)
  offline _ := iff_of_false List.not_mem_nil (by rintro ⟨a,⟨⟩,h⟩)
  unique _ _ _ _ := (by rintro ⟨⟩)
  fresh _ _ := (by rintro ⟨⟩)
  valid _ _ := (by rintro ⟨⟩)
  victim _ := (by rintro ⟨⟩)

theorem units_new (owner : ℕ) : (ThreatManager.new (F := F) owner).units=∅ :=
  Set.eq_empty_of_forall_notMem fun _ => by rintro ⟨_,_,⟨⟩,-⟩

section Runs

variable [LT F] [LE F] [DecidableLT F] [DecidableLE F]
variable (o : FloatOps F)

/-- The containers are in order, and the hated units are those that have references. -/
structure Hating.InOrder (t : Hating F) : Prop where
  wellformed : Wellformed t.manager
  units : t.manager.units=t.hated

/-- Every operation keeps the containers in order, and the record of who is hated. -/
theorem Hating.InOrder.step {t : Hating F} (h : t.InOrder) (a : World F×Op F) :
    (recordStep o t a).InOrder := by
  have hw := h.wellformed
  have hgrown : ∀ {m' : ThreatManager F} {given : Set ℕ},Grown a.1 t.manager m' given →
      Hating.InOrder ⟨m',t.hated ∪ given⟩ := fun hg =>
    ⟨hg.wellformed,hg.units.trans (h.units ▸ rfl)⟩
  have hsame : ∀ {m' : ThreatManager F},Wellformed m' → m'.units=t.manager.units →
      Hating.InOrder ⟨m',t.hated ∪ ∅⟩ := fun hw' hunits =>
    ⟨hw',by rw [Set.union_empty,hunits,h.units]⟩
  have hown : ∀ {victim : ℕ} {f : ℕ → ThreatManager F},
      (∀ r ref,t.manager.references r=some ref → ref.valid=true →
        Wellformed (f r) ∧ (f r).units=t.manager.units) →
      Hating.InOrder ⟨(t.manager.hatedBy victim).elim t.manager f,t.hated ∪ ∅⟩ := by
    intro victim f hf
    cases hby : t.manager.hatedBy victim with
    | none => exact hsame hw rfl
    | some r =>
      obtain ⟨ref,hr,-,hvalid⟩ := hatedBy_some hby
      exact hsame (hf r ref hr hvalid).1 (hf r ref hr hvalid).2
  obtain ⟨w,op⟩ := a
  cases op with
  | addThreat victim threat schoolMask threatSpell =>
    simp only [recordStep,ThreatModel.step,givenBy,ThreatManager.addThreat]
    split
    · exact hgrown (hw.doAddThreat o victim _)
    · exact hsame hw rfl
  | doAddThreat victim threat => exact hgrown (hw.doAddThreat o victim threat)
  | modifyThreatPercent victim percent =>
    simp only [recordStep,ThreatModel.step,givenBy,ThreatManager.modifyThreatPercent]
    split
    · exact hsame hw rfl
    next r hr =>
    obtain ⟨ref,hr',rfl⟩ := findReference_some (Option.or_eq_some_iff.mpr (.inl hr))
    exact hgrown (hw.addOwnThreat o hr' _)
  | clearReferences =>
    refine ⟨hw.clearReferences,Set.eq_empty_of_forall_notMem fun u => ?_⟩
    rintro ⟨r,ref,hr,-⟩
    exact Option.some_ne_none ref (hr.symm.trans (hw.clearReferences_none r))
  | getHostilTarget =>
    have hq := getHostilTarget_quiet o w t.manager
    exact hsame (hw.quiet hq) (units_eq fun x =>
      congrArg (Option.map _) (congrFun (getHostilTarget_references o w t.manager) x))
  | addReferenceThreat victim modThreat =>
    simp only [recordStep,ThreatModel.step,givenBy]
    cases hby : t.manager.hatedBy victim with
    | none => exact hsame hw rfl
    | some r =>
      obtain ⟨ref,hr,rfl,-⟩ := hatedBy_some hby
      exact hgrown (hw.addOwnThreat o hr modThreat)
  | updateOnlineStatus victim =>
    exact hown fun r _ _ _ => ⟨hw.updateOnlineStatus o w r,
      units_of_links (w := w) (links_updateOnlineStatus o t.manager r)⟩
  | setOnlineOfflineState victim isOnline =>
    refine hown fun r ref hr hv => ⟨hw.setOnlineOfflineState o w r isOnline fun ref' hr' _ => ?_,
      units_of_links (w := w) (links_setOnlineOfflineState o t.manager r isOnline)⟩
    exact Option.some.inj (hr.symm.trans hr') ▸ hv
  | invalidate victim =>
    exact hown fun r _ _ _ => ⟨hw.invalidate o w r,units_eq (map_invalidate o w r)⟩
  | removeReference victim =>
    simp only [recordStep,ThreatModel.step]
    cases hby : t.manager.hatedBy victim with
    | none => exact h
    | some r =>
      obtain ⟨ref,hr,rfl,-⟩ := hatedBy_some hby
      exact ⟨hw.removeReference o w r,by
        simp only [Option.elim_some,Option.isSome_some,if_true,← h.units]
        exact hw.units_removeReference o w hr⟩
  | setDirty isDirty => exact hsame (hw.quiet (setDirty_quiet _ isDirty)) rfl

/-- After every run each hated unit has exactly one reference, which is in the container of
its status once and not in the other one; the victim is online; and an update of a dirty
container keeps its references, and sorts them if each of their threats is a number. -/
theorem threat_containers [FloatOrder F] (owner : ℕ) (steps : List (World F×Op F)) :
    let t := run (recordStep o) (Hating.new owner) steps
    let m := t.manager
    (∀ u∈t.hated, ∃! r, ∃ ref, m.references r=some ref ∧ ref.unitGuid=u) ∧
      (∀ r ref, m.references r=some ref →
        ref.unitGuid∈t.hated ∧
        m.threatContainer.threatList.count r=(if ref.online then 1 else 0) ∧
        m.threatOfflineContainer.threatList.count r=(if ref.online then 0 else 1)) ∧
      (∀ r, m.currentVictim=some r → r∈m.threatContainer.threatList) ∧
      ∀ c∈[m.threatContainer,m.threatOfflineContainer],c.dirty=true →
        (c.update o m.references).threatList.Perm c.threatList ∧
        ((∀ r∈c.threatList,m.references.getThreat o r ≤ m.references.getThreat o r) →
          (c.update o m.references).threatList.Pairwise
            fun a b => m.references.getThreat o b ≤ m.references.getThreat o a) := by
  intro t m
  have ht : t.InOrder := run_invariant_always (I := Hating.InOrder)
    (fun _ a h => Hating.InOrder.step o h a) ⟨wellformed_new owner,units_new owner⟩ steps
  have hw : Wellformed m := ht.wellformed
  refine ⟨fun u hu => ?_,fun r ref hr => ⟨?_,?_,?_⟩,hw.victim,
    fun c _ hdirty => ⟨update_perm o c m.references,update_sorted o c m.references hdirty⟩⟩
  · obtain ⟨r,ref,hr,hg⟩ := ht.units.symm ▸ hu
    refine ⟨r,⟨ref,hr,hg⟩,?_⟩
    rintro r' ⟨ref',hr',hg'⟩
    exact hw.unique r' r ref' ref hr' hr (hg'.trans hg.symm)
  · exact ht.units ▸ ⟨r,ref,hr,rfl⟩
  · obtain ⟨hon,-,-⟩ := List.nodup_append'.mp hw.nodup
    cases ho : ref.online with
    | true => exact List.count_eq_one_of_mem hon ((hw.online r).mpr ⟨ref,hr,ho⟩)
    | false => exact List.count_eq_zero.mpr (hw.not_online hr ho)
  · obtain ⟨-,hoff,-⟩ := List.nodup_append'.mp hw.nodup
    cases ho : ref.online with
    | true => exact List.count_eq_zero.mpr (hw.not_offline hr ho)
    | false => exact List.count_eq_one_of_mem hoff ((hw.offline r).mpr ⟨ref,hr,ho⟩)

end Runs

/-- The operations of the processor in single precision. -/
def singleOps : FloatOps Float32 where
  ofInt := .ofInt
  add := (·+·)
  sub := (·-·)
  mul := (·*·)
  div := (·/·)
  meleeRate := 1.1
  rangedRate := 1.3

/-- Units that are alive and in sight, and are nobody's pets. -/
def openField : World Float32 where
  getUnit _ := true
  isGameMaster _ := false
  isAlive _ := true
  isInMap _ := true
  inSamePhase _ := true
  inFlight _ := false
  isInAccessiblePlace _ := true
  isWithinCombatRange _ := true
  isSecondChoice _ := false
  canCreatureAttack _ := true
  isWithinMeleeRange _ := true
  redirectThreatPercent _ := 0
  redirectThreatTarget _ := none
  applySpellMod _ := id
  applyTotalThreatModifier _ _ := id
  charmerOrOwner _ := none
  depth _ := 0
  depth_lt := masterless

/-- A run among units in the open. -/
def openRun (ops : List (Op Float32)) : List (World Float32×Op Float32) :=
  ops.map fun op => (openField,op)

/-- Two units, of which the one that is hated more comes back behind the other. -/
def comeBack : List (World Float32×Op Float32) :=
  openRun [.addThreat 3 9 1 none,.setOnlineOfflineState 3 false,.addThreat 2 5 1 none,
    .setOnlineOfflineState 3 true,.setDirty true]

theorem threat_containers_comeBack :
    let t := run (recordStep singleOps) (Hating.new 9) comeBack
    let m := t.manager
    (∃! r, ∃ ref, m.references r=some ref ∧ ref.unitGuid=3) ∧
      m.threatContainer.threatList=[1,0] ∧
      (m.threatContainer.update singleOps m.references).threatList.Perm [1,0] ∧
      (m.threatContainer.update singleOps m.references).threatList.Pairwise fun a b =>
        m.references.getThreat singleOps b ≤ m.references.getThreat singleOps a := by
  intro t m
  obtain ⟨hone,-,-,hupdate⟩ := threat_containers singleOps 9 comeBack
  have hlist : m.threatContainer.threatList=[1,0] := by decide +kernel
  obtain ⟨hperm,hsorted⟩ := hupdate m.threatContainer List.mem_cons_self (by decide +kernel)
  have hhated : 3∈t.hated := by
    refine .inl (.inl (.inl (.inl (.inr ?_))))
    exact Given.unit (o := singleOps) (w := openField) (m := ThreatManager.new 9) 3 9
  refine ⟨hone 3 hhated,hlist,hlist ▸ hperm,hsorted ?_⟩
  decide +kernel

/-- Four units, of which two get a threat that is no number. -/
def noNumbers : List (World Float32×Op Float32) :=
  openRun [.addThreat 4 5 1 none,.setOnlineOfflineState 4 false,.addThreat 1 1 1 none,
    .addThreat 2 (-3e38) 1 none,.modifyThreatPercent 2 100,.modifyThreatPercent 2 100,
    .addThreat 3 (-3e38) 1 none,.modifyThreatPercent 3 100,.modifyThreatPercent 3 100,
    .setOnlineOfflineState 4 true,.setDirty true]

/-- Two threats that are no numbers keep the highest one at the end, and a lower one before it. -/
theorem nan_threats_stay_unsorted :
    let m := run (step singleOps) (ThreatManager.new 9) noNumbers
    m.threatContainer.dirty=true ∧
      ¬(m.threatContainer.update singleOps m.references).threatList.Pairwise fun a b =>
        ¬m.references.getThreat singleOps a < m.references.getThreat singleOps b := by
  intro m
  have hlist : m.threatContainer.threatList=[1,2,3,0] := by decide +kernel
  have hdirty : m.threatContainer.dirty=true := by decide +kernel
  have hcompare : ∀ a<4,∀ b<4,threatOrderPred singleOps m.references a b=decide (a=0 ∧ b=1) := by
    decide +kernel
  have hkept : (m.threatContainer.update singleOps m.references).threatList=[1,2,3,0] := by
    unfold ThreatContainer.update
    rw [if_pos ⟨hdirty,by rw [hlist]; decide⟩,hlist]
    simp [List.mergeSort,List.MergeSort.Internal.splitInTwo,hcompare]
  rw [hkept]
  exact ⟨hdirty,by decide +kernel⟩

end Projectnelth.ThreatModel
