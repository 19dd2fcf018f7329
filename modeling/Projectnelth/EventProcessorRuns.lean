import Mathlib
import Projectnelth.EventProcessorSteps

/-!
# Runs of the event processor

Every turn of the main loop takes out a due event. What it adds is due later, except for what an
abortion adds, and then one marked event less is left. So `Update` comes to its end, with no due
event left, and what was pending at its start was executed in the order of the times.
-/

namespace Projectnelth.EventProcessorModel

open StableMultimap

variable {busy : Option ℕ} {s s' s'' : State} {id t : ℕ} {cb : Callbacks}

/-- The events that are due. -/
def dueCount (s : State) : ℕ := s.events.countP fun y => y.1 ≤ s.time

/-- The events that are due and marked. -/
def markedCount (s : State) : ℕ := s.events.countP fun y => y.1 ≤ s.time && y.2∈s.toAbort

/-- What the actions of an execution do to the processor. -/
structure Performed (s s' : State) : Prop where
  /-- The processor stays in order. -/
  inv : Inv none s'
  time : s'.time=s.time
  executions : executions s'.log=executions s.log
  /-- What comes in is due later. -/
  events : ∀ y∈s'.events,y∈s.events ∨ s.time < y.1
  /-- No more events are due. -/
  due : dueCount s' ≤ dueCount s
  /-- No more events are due and marked. -/
  marked : markedCount s' ≤ markedCount s
  /-- No number is given back. -/
  created : s.created ≤ s'.created

theorem Performed.refl (h : Inv none s) : Performed s s :=
  ⟨h,rfl,rfl,fun _ hy => Or.inl hy,le_rfl,le_rfl,le_rfl⟩

theorem Performed.trans (h : Performed s s') (h' : Performed s' s'') : Performed s s'' where
  inv := h'.inv
  time := h'.time.trans h.time
  executions := h'.executions.trans h.executions
  events := fun y hy => by
    rcases h'.events y hy with hmem | hlt
    · exact h.events y hmem
    · exact Or.inr (h.time ▸ hlt)
  due := h'.due.trans h.due
  marked := h'.marked.trans h.marked
  created := h.created.trans h'.created

theorem performed_addEvent {created : ℕ}
    (hinv : Inv none {s.addEvent id t with created := created}) (ht : s.time < t)
    (hcreated : s.created ≤ created) :
    Performed s {s.addEvent id t with created := created} where
  inv := hinv
  time := rfl
  executions := rfl
  events := fun y hy => by
    rcases mem_insert.mp hy with rfl | hmem
    · exact Or.inr ht
    · exact Or.inl hmem
  due := by
    refine ((insert_perm Prod.fst (t,id) s.events).countP_eq _).le.trans ?_
    rw [List.countP_cons_of_neg]
    · exact le_rfl
    · exact fun hle => absurd (of_decide_eq_true hle) (not_le.mpr ht)
  marked := by
    refine ((insert_perm Prod.fst (t,id) s.events).countP_eq _).le.trans ?_
    rw [List.countP_cons_of_neg]
    · exact le_rfl
    · exact fun hboth => absurd (of_decide_eq_true ((Bool.and_eq_true _ _).mp hboth).1)
        (not_le.mpr ht)
  created := hcreated

theorem performed_killed (h : Inv none s) : Performed s s.killed where
  inv := h.killed
  time := rfl
  executions := (executions_killLog _ _).trans rfl
  events := fun _ hy => (by cases hy)
  due := Nat.zero_le _
  marked := Nat.zero_le _
  created := le_rfl

theorem phase_killed_of_ran (h : Inv none s) (hran : phase s.log id=.ran) :
    phase s.killed.log id=.ran := by
  refine (phase_killLog s.events (.killStarted::s.log) id).trans ?_
  rw [if_neg (fun hmem => by cases ((h.waiting id).mpr hmem).symm.trans hran)]
  exact hran

/-- The actions of an execution come to their end. -/
theorem performAll_spec (hquiet : Quiet cb) {actions : List Action} (h : Inv none s)
    (horder : Orderly s.aborting actions)
    (hlater : ∀ t,Action.add t∈actions ∨ Action.readd t∈actions → s.time < t)
    (honce : actions.countP Action.isReadd ≤ 1)
    (hran : actions.countP Action.isReadd≠0 → phase s.log id=.ran) :
    ∃ n₀ s',(∀ n ≥ n₀,performAll cb n id actions s=some s') ∧ Performed s s' ∧
      (actions.countP Action.isReadd=0 → phase s.log id=.ran → phase s'.log id=.ran) := by
  induction actions generalizing s with
  | nil => exact ⟨0,s,fun _ _ => rfl,Performed.refl h,fun _ hp => hp⟩
  | cons action actions ih =>
    cases action with
    | add t =>
      obtain ⟨hflag,horder⟩ := horder
      have ht : s.time < t := hlater t (Or.inl List.mem_cons_self)
      have hstep := performed_addEvent (h.addNew hflag t) ht (Nat.le_succ _)
      have hne (hp : phase s.log id=.ran) : s.created≠id := fun heq => by
        rw [(h.absent id).mpr heq.le] at hp
        cases hp
      obtain ⟨n₀,s',hrun,hperf,hphase⟩ := ih (h.addNew hflag t) horder
        (fun t' ht' => hlater t' (ht'.imp (List.mem_cons_of_mem _) (List.mem_cons_of_mem _)))
        honce (fun hc => (if_neg (hne (hran hc))).trans (hran hc))
      exact ⟨n₀,s',hrun,hstep.trans hperf,fun hc hp => hphase hc ((if_neg (hne hp)).trans hp)⟩
    | readd t =>
      obtain ⟨hflag,horder⟩ := horder
      have ht : s.time < t := hlater t (Or.inr List.mem_cons_self)
      have hcount : (Action.readd t::actions).countP Action.isReadd=
          actions.countP Action.isReadd+1 := List.countP_cons_of_pos rfl
      rw [hcount] at honce hran ⊢
      have hadd := h.readd hflag (hran (Nat.succ_ne_zero _)) t
      obtain ⟨n₀,s',hrun,hperf,-⟩ := ih hadd horder
        (fun t' ht' => hlater t' (ht'.imp (List.mem_cons_of_mem _) (List.mem_cons_of_mem _)))
        (by omega) (fun hc => absurd (show actions.countP Action.isReadd=0 by omega) hc)
      exact ⟨n₀,s',hrun,(performed_addEvent hadd ht le_rfl).trans hperf,
        fun hc => absurd hc (Nat.succ_ne_zero _)⟩
    | kill force =>
      have hkill (n : ℕ) (hn : s.events.length ≤ n) := h.killAllEvents hquiet force hn
      obtain ⟨n₀,s',hrun,hperf,hphase⟩ := ih h.killed horder
        (fun t' ht' => hlater t' (ht'.imp (List.mem_cons_of_mem _) (List.mem_cons_of_mem _)))
        honce (fun hc => phase_killed_of_ran h (hran hc))
      refine ⟨max s.events.length n₀,s',fun n hn => ?_,(performed_killed h).trans hperf,
        fun hc hp => hphase hc (phase_killed_of_ran h hp)⟩
      unfold performAll
      rw [hkill n ((le_max_left _ _).trans hn)]
      exact hrun n ((le_max_right _ _).trans hn)

/-- What new events that an abortion adds do to the processor. -/
structure AddedAll (busy : Option ℕ) (s s' : State) : Prop where
  /-- The processor stays in order. -/
  inv : Inv busy s'
  time : s'.time=s.time
  executions : executions s'.log=executions s.log
  /-- What comes in is new. -/
  events : ∀ y∈s'.events,y∈s.events ∨ s.created ≤ y.2
  /-- No more events are due and marked. -/
  marked : markedCount s' ≤ markedCount s
  /-- No number is given back. -/
  created : s.created ≤ s'.created
  phase : ∀ i < s.created,phase s'.log i=phase s.log i

theorem AddedAll.refl (h : Inv busy s) : AddedAll busy s s :=
  ⟨h,rfl,rfl,fun _ hy => Or.inl hy,le_rfl,le_rfl,fun _ _ => rfl⟩

/-- The new events of an abortion. -/
theorem Inv.addAll (h : Inv busy s) (hflag : s.aborting=false) (times : List ℕ) :
    AddedAll busy s (s.addAll times) := by
  induction times generalizing s with
  | nil => exact AddedAll.refl h
  | cons t times ih =>
    have hrest := ih (h.addNew hflag t) hflag
    have hmark : s.created∉s.toAbort := fun hmem => lt_irrefl _ (h.marks _ hmem)
    refine ⟨hrest.inv,hrest.time,hrest.executions,fun y hy => ?_,hrest.marked.trans ?_,
      (Nat.le_succ _).trans hrest.created,fun i hi => ?_⟩
    · rcases hrest.events y hy with hmem | hle
      · rcases mem_insert.mp hmem with rfl | hmem
        · exact Or.inr le_rfl
        · exact Or.inl hmem
      · exact Or.inr ((Nat.le_succ _).trans hle)
    · refine ((insert_perm Prod.fst (t,s.created) s.events).countP_eq _).le.trans ?_
      rw [List.countP_cons_of_neg]
      · exact le_rfl
      · exact fun hboth => hmark (of_decide_eq_true ((Bool.and_eq_true _ _).mp hboth).2)
    · exact (hrest.phase i (hi.trans (Nat.lt_succ_self _))).trans (if_neg hi.ne')

/-- An abortion adds nothing once a kill began. -/
theorem Inv.addAll_of_quiet (h : Inv busy s) {times : List ℕ}
    (htimes : s.aborting=true → times=[]) : AddedAll busy s (s.addAll times) := by
  by_cases hflag : s.aborting=true
  · rw [htimes hflag]
    exact AddedAll.refl h
  · exact h.addAll (Bool.eq_false_iff.mpr hflag) times

/-- What one turn of the main loop does. -/
structure Turned (s s' : State) (x : ℕ×ℕ) (rest : List (ℕ×ℕ)) : Prop where
  /-- The processor stays in order. -/
  inv : Inv none s'
  time : s'.time=s.time
  /-- The event is executed or aborted. -/
  executions : executions s'.log=executions s.log ∨ executions s'.log=x::executions s.log
  /-- What comes in is due later or new. -/
  events : ∀ y∈s'.events,y∈rest ∨ s.time < y.1 ∨ s.created ≤ y.2
  less : markedCount s' < markedCount s ∨
    (markedCount s' ≤ markedCount s ∧ dueCount s' < dueCount s)
  /-- No number is given back. -/
  created : s.created ≤ s'.created

/-- A turn comes to its end. -/
theorem updateStep_spec (htimely : Timely cb) (hquiet : Quiet cb) (h : Inv none s) {x : ℕ×ℕ}
    {rest : List (ℕ×ℕ)} (hevents : s.events=x::rest) (hdue : x.1 ≤ s.time) :
    ∃ n₀ s',(∀ n ≥ n₀,updateStep cb n {s with events := rest} x=some s') ∧
      Turned s s' x rest := by
  have hwait := h.head_waiting hevents
  have hlt : x.2 < s.created :=
    not_le.mp fun hle => by cases hwait.symm.trans ((h.absent x.2).mpr hle)
  have hdueCount : dueCount s=rest.countP (fun y => y.1 ≤ s.time)+1 := by
    unfold dueCount
    rw [hevents]
    exact List.countP_cons_of_pos (by exact decide_eq_true hdue)
  by_cases hmark : x.2∈s.toAbort
  · have hmarked : markedCount s=rest.countP (fun y => y.1 ≤ s.time && y.2∈s.toAbort)+1 := by
      unfold markedCount
      rw [hevents]
      exact List.countP_cons_of_pos (by rw [decide_eq_true hdue,decide_eq_true hmark]; rfl)
    have hpop : Inv (some x.2) ({s with events := rest}.logged (.aborted x.2)) :=
      h.pop (p := .aborted) hevents (fun h => by cases h) (fun h => by cases h) (fun _ => rfl) hwait
        (fun h => by cases h) (fun _ => rfl)
    have hadd : AddedAll (some x.2) ({s with events := rest}.logged (.aborted x.2))
        (({s with events := rest}.logged (.aborted x.2)).addAll
          (cb.abort ({s with events := rest}.logged (.aborted x.2)) x.2)) :=
      hpop.addAll_of_quiet (hquiet.abort _ _)
    refine ⟨0,_,fun n _ => if_pos hmark,?_⟩
    have hphase := (hadd.phase x.2 hlt).trans (if_pos rfl)
    refine ⟨hadd.inv.destroy (Or.inr hphase),hadd.time,Or.inl hadd.executions,fun y hy => ?_,
      Or.inl ?_,hadd.created⟩
    · exact (hadd.events y hy).imp_right Or.inr
    · exact hmarked ▸ Nat.lt_succ_of_le hadd.marked
  · have hmarked : markedCount s=rest.countP fun y => y.1 ≤ s.time && y.2∈s.toAbort := by
      unfold markedCount
      rw [hevents]
      exact List.countP_cons_of_neg
        (fun hboth => hmark (of_decide_eq_true ((Bool.and_eq_true _ _).mp hboth).2))
    have hpop : Inv none ({s with events := rest}.logged (.executed x.2 x.1 s.time)) :=
      h.pop (p := .ran) hevents (fun h => by cases h) (fun h => by cases h) (fun _ => rfl)
        ⟨hwait,hdue⟩ (fun h => by cases h) (fun h => by cases h)
    have hran : phase ({s with events := rest}.logged (.executed x.2 x.1 s.time)).log x.2=.ran :=
      if_pos rfl
    obtain ⟨n₀,s₂,hrun,hperf,hstays⟩ := performAll_spec hquiet hpop (hquiet.execute _ x.2)
      (fun t ht => ht.elim (htimely.later _ x.2 t) (htimely.laterAgain _ x.2 t))
      (htimely.once _ x.2) (fun _ => hran)
    have hturn : Turned s s₂ x rest := by
      refine ⟨hperf.inv,hperf.time,Or.inr hperf.executions,fun y hy => ?_,Or.inr ⟨?_,?_⟩,
        hperf.created⟩
      · exact (hperf.events y hy).imp_right Or.inl
      · exact hmarked ▸ hperf.marked
      · exact hdueCount ▸ Nat.lt_succ_of_le hperf.due
    refine ⟨n₀,_,fun n hn => (if_neg hmark).trans (congrArg (Option.map _) (hrun n hn)),?_⟩
    cases hfinished : (cb.execute ({s with events := rest}.logged
        (.executed x.2 x.1 s.time)) x.2).2 with
    | false => exact hturn
    | true =>
      have hzero := htimely.kept _ x.2 hfinished
      exact ⟨(hperf.inv.weaken x.2).destroy (Or.inl (hstays hzero hran)),hturn.time,
        hturn.executions,hturn.events,hturn.less,hturn.created⟩

/-- The executed times of some events, the latest first. -/
def timesOf (ids : List ℕ) (ran : List (ℕ×ℕ)) : List ℕ :=
  (ran.filter fun y => y.2∈ids).map Prod.fst

theorem timesOf_concat (ids : List ℕ) (ran : List (ℕ×ℕ)) (x : ℕ×ℕ) :
    timesOf ids (ran++[x])=timesOf ids ran++if x.2∈ids then [x.1] else [] := by
  unfold timesOf
  rw [List.filter_append,List.map_append]
  split_ifs with hx
  · have hone : [x].filter (fun y => y.2∈ids)=[x] := by simpa using hx
    rw [hone]
    rfl
  · have hnone : [x].filter (fun y => y.2∈ids)=[] := by simpa using hx
    rw [hnone]
    rfl

/-- What the main loop does: no due event is left, and the events of a list, all of which wait
for times from `low` on, are executed in the order of the times. -/
structure Updated (s s' : State) (ids : List ℕ) (low : ℕ) : Prop where
  /-- The processor is in order. -/
  inv : Inv none s'
  time : s'.time=s.time
  /-- Nothing is due. -/
  later : ∀ y∈s'.events,s'.time < y.1
  /-- The executions come in the order of the times. -/
  sorted : ∃ ran,executions s'.log=ran++executions s.log ∧
    (timesOf ids ran).Pairwise (fun a b => b ≤ a) ∧ ∀ d∈timesOf ids ran,low ≤ d

/-- The main loop comes to its end. The induction is on the marked events that are due, then
on the due events. -/
theorem updateLoop_spec (htimely : Timely cb) (hquiet : Quiet cb) (ids : List ℕ) {low : ℕ}
    (h : Inv none s) (hids : ∀ i∈ids,i < s.created)
    (hlow : ∀ y∈s.events,y.2∈ids → low ≤ y.1) (hnow : low ≤ s.time) :
    ∃ n₀ s',(∀ n ≥ n₀,updateLoop cb n s=some s') ∧ Updated s s' ids low := by
  have hwf : WellFounded (Prod.Lex (· < ·) (· < ·) : ℕ×ℕ → ℕ×ℕ → Prop) :=
    WellFounded.prod_lex wellFounded_lt wellFounded_lt
  generalize hmeasure : (markedCount s,dueCount s)=measure
  induction measure using hwf.induction generalizing s low with
  | _ measure ih =>
    cases hevents : s.events with
    | nil =>
      refine ⟨1,s,fun n hn => ?_,h,rfl,fun y hy => ?_,[],rfl,List.Pairwise.nil,
        fun _ hd => (by cases hd)⟩
      · obtain ⟨n,rfl⟩ := Nat.exists_eq_add_of_le' hn
        unfold updateLoop
        rw [hevents]
      · rw [hevents] at hy
        cases hy
    | cons x rest =>
      by_cases hdue : x.1 ≤ s.time
      · obtain ⟨n₁,s₁,hstep,hturn⟩ := updateStep_spec htimely hquiet h hevents hdue
        have hlex : Prod.Lex (· < ·) (· < ·) (markedCount s₁,dueCount s₁) measure := by
          rw [← hmeasure]
          rcases hturn.less with hlt | ⟨hle,hlt⟩
          · exact Prod.Lex.left _ _ hlt
          · rcases hle.lt_or_eq with hlt' | heq
            · exact Prod.Lex.left _ _ hlt'
            · rw [heq]
              exact Prod.Lex.right _ hlt
        have hrest : ∀ y∈rest,x.1 ≤ y.1 := fun y hy =>
          Ordered.head_le (hevents ▸ h.ordered) y (List.mem_cons_of_mem x hy)
        have hnew (d : ℕ) (hd : d ≤ s.time) (hold : ∀ y∈rest,y.2∈ids → d ≤ y.1) :
            ∀ y∈s₁.events,y.2∈ids → d ≤ y.1 := fun y hy hi => by
          rcases hturn.events y hy with hmem | hlt | hle
          · exact hold y hmem hi
          · exact hd.trans hlt.le
          · exact absurd (hids y.2 hi) (not_lt.mpr hle)
        have hids₁ : ∀ i∈ids,i < s₁.created := fun i hi => (hids i hi).trans_le hturn.created
        have hloop (n₀ : ℕ) (s' : State) (hrun : ∀ n ≥ n₀,updateLoop cb n s₁=some s') :
            ∀ n ≥ max n₀ n₁+1,updateLoop cb n s=some s' := fun n hn => by
          obtain ⟨n,rfl⟩ := Nat.exists_eq_add_of_le' ((Nat.le_add_left 1 _).trans hn)
          have hn' : max n₀ n₁ ≤ n := Nat.le_of_succ_le_succ hn
          unfold updateLoop
          rw [hevents]
          dsimp only
          rw [if_pos hdue,hstep n ((le_max_right _ _).trans hn'),Option.bind_some]
          exact hrun n ((le_max_left _ _).trans hn')
        by_cases hx : x.2∈ids ∧ executions s₁.log=x::executions s.log
        · have hlowx : low ≤ x.1 := hlow x (by rw [hevents]; exact List.mem_cons_self) hx.1
          obtain ⟨n₀,s',hrun,hup⟩ := ih _ hlex hturn.inv hids₁
            (hnew x.1 hdue fun y hy _ => hrest y hy) (hturn.time.symm ▸ hdue) rfl
          obtain ⟨ran,hran,hsorted,hbound⟩ := hup.sorted
          refine ⟨_,s',hloop n₀ s' hrun,hup.inv,hup.time.trans hturn.time,hup.later,ran++[x],
            ?_,?_,?_⟩
          · rw [hran,hx.2,List.append_assoc]
            rfl
          · rw [timesOf_concat,if_pos hx.1]
            refine List.pairwise_append.mpr ⟨hsorted,List.pairwise_singleton _ _,?_⟩
            intro d hd d' hd'
            rw [List.mem_singleton.mp hd']
            exact hbound d hd
          · intro d hd
            rw [timesOf_concat,if_pos hx.1] at hd
            rcases List.mem_append.mp hd with hd | hd
            · exact hlowx.trans (hbound d hd)
            · exact (List.mem_singleton.mp hd).symm ▸ hlowx
        · obtain ⟨n₀,s',hrun,hup⟩ := ih _ hlex hturn.inv hids₁
            (hnew low hnow fun y hy => hlow y (by rw [hevents]; exact List.mem_cons_of_mem x hy))
            (hturn.time.symm ▸ hnow) rfl
          obtain ⟨ran,hran,hsorted,hbound⟩ := hup.sorted
          refine ⟨_,s',hloop n₀ s' hrun,hup.inv,hup.time.trans hturn.time,hup.later,?_⟩
          rcases hturn.executions with hsame | hmore
          · exact ⟨ran,by rw [hran,hsame],hsorted,hbound⟩
          have hi : x.2∉ids := fun hi => hx ⟨hi,hmore⟩
          refine ⟨ran++[x],by rw [hran,hmore,List.append_assoc]; rfl,?_⟩
          rw [timesOf_concat,if_neg hi,List.append_nil]
          exact ⟨hsorted,hbound⟩
      · refine ⟨1,s,fun n hn => ?_,h,rfl,fun y hy => ?_,[],rfl,List.Pairwise.nil,
          fun _ hd => (by cases hd)⟩
        · obtain ⟨n,rfl⟩ := Nat.exists_eq_add_of_le' hn
          unfold updateLoop
          rw [hevents]
          exact if_neg hdue
        · have hhead := Ordered.head_le (hevents ▸ h.ordered) y (hevents ▸ hy)
          exact (not_le.mp hdue).trans_le hhead

end Projectnelth.EventProcessorModel
