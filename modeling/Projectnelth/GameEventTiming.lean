import Projectnelth.GameEventModel

/-!
# When a game event is looked at again

The delay of a normal event reaches to the next second at which it may change. It does so at every
second but the first one of the event, one whose last period has a single second, and one so early
that the seconds until the start do not fit a word.
-/

namespace Projectnelth.GameEventTiming

open GameEventModel GameEventMgr

/-- The differences that `NextCheck` keeps as `uint32`, for a normal event. -/
def converted (data : GameEventData) (currenttime : ℤ) : List ℤ :=
  if data.end < currenttime then []
  else if currenttime < data.start then [data.start-currenttime]
  else
    let delay :=
      if data.passed currenttime < data.window then data.window-data.passed currenttime
      else data.period-data.passed currenttime
    if data.end < currenttime+uint32 delay then [delay,data.end-currenttime] else [delay]

/-- An event does not change before it is looked at again, no period that is over by then is missed,
and no difference wraps. -/
def Punctual (mgr : GameEventMgr) (entry : ℕ) (currenttime : ℤ) : Prop :=
  ∃ active delay,mgr.CheckOneGameEvent entry currenttime=some active ∧
    mgr.NextCheck entry currenttime=some delay ∧
    (∀ time,currenttime < time → time < currenttime+delay →
      mgr.CheckOneGameEvent entry time=some active) ∧
    (mgr.CheckOneGameEvent entry (currenttime+delay+1)=some active →
      mgr.CheckOneGameEvent entry (currenttime+delay)=some active) ∧
    ∀ difference∈converted (mgr.mGameEvent entry) currenttime,
      0 ≤ difference ∧ difference < 2^32

/-- The times at which an event is handled on time. -/
structure OnTime (data : GameEventData) (currenttime : ℤ) : Prop where
  /-- The seconds until the start fit a word. -/
  near : currenttime ≤ data.end → data.start-currenttime < 2^32
  period : data.start ≤ currenttime → currenttime ≤ data.end → data.period≠0
  /-- The event is over, empty or does not start in this second. -/
  begun : data.start=currenttime → data.window≠0 → data.end < data.start+2
  /-- The next period has more than one second or none. -/
  whole : data.start < currenttime → currenttime < data.end →
    data.window ≤ data.passed currenttime → data.window≠0 →
      data.end≠currenttime+(data.period-data.passed currenttime)+1

variable {mgr : GameEventMgr} {entry : ℕ} {data : GameEventData} {t : ℤ}

/-! ## Periods and windows -/

theorem uint32_of_lt {n : ℤ} (h : 0 ≤ n) (hn : n < 2^32) : uint32 n=n :=
  Int.emod_eq_of_lt h hn

/-- A time in minutes is a multiple of four seconds, also in a word. -/
theorem uint32_minutes (n : ℕ) :
    0 ≤ uint32 (n*60) ∧ uint32 (n*60) < 2^32 ∧ 4∣uint32 (n*60) := by
  unfold uint32
  omega

theorem period_bounds (data : GameEventData) :
    0 ≤ data.period ∧ data.period < 2^32 ∧ 4∣data.period :=
  uint32_minutes data.occurence.toNat

theorem window_bounds (data : GameEventData) :
    0 ≤ data.window ∧ data.window < 2^32 ∧ 4∣data.window :=
  uint32_minutes data.length.toNat

theorem passed_bounds (hp : data.period≠0) (t : ℤ) :
    0 ≤ data.passed t ∧ data.passed t < data.period := by
  have hperiod := period_bounds data
  constructor
  · exact Int.emod_nonneg _ hp
  · exact Int.emod_lt_of_pos _ (by omega)

/-- So many seconds later in the same period. -/
theorem passed_add {k : ℤ} (hk : 0 ≤ k) (hp : data.period≠0)
    (h : data.passed t+k < data.period) : data.passed (t+k)=data.passed t+k := by
  have hpassed := passed_bounds hp t
  have hsum : t+k-data.start=(t-data.start)+k := by omega
  unfold GameEventData.passed at h hpassed ⊢
  rw [hsum,← Int.emod_add_emod]
  exact Int.emod_eq_of_lt (by omega) h

/-- So many seconds later in the next period. -/
theorem passed_next {k : ℤ} (hk : data.period ≤ data.passed t+k)
    (h : data.passed t+k < data.period+data.period) :
    data.passed (t+k)=data.passed t+k-data.period := by
  have hsum : t+k-data.start=(t-data.start)+k := by omega
  unfold GameEventData.passed at hk h ⊢
  rw [hsum,← Int.emod_add_emod,← Int.sub_emod_right]
  exact Int.emod_eq_of_lt (by omega) (by omega)

theorem passed_start (data : GameEventData) : data.passed data.start=0 := by
  simp only [GameEventData.passed,Int.sub_self,Int.zero_emod]

/-! ## A normal event -/

theorem check_normal (hdata : mgr.mGameEvent entry=data)
    (hnormal : data.state=.GAMEEVENT_NORMAL) (t : ℤ) :
    mgr.CheckOneGameEvent entry t=
      if data.start < t ∧ t < data.end then
        if data.period=0 then none else some (decide (data.passed t < data.window))
      else some false := by
  simp only [CheckOneGameEvent,hdata,hnormal]

theorem check_outside (hdata : mgr.mGameEvent entry=data)
    (hnormal : data.state=.GAMEEVENT_NORMAL) (h : t ≤ data.start ∨ data.end ≤ t) :
    mgr.CheckOneGameEvent entry t=some false := by
  rw [check_normal hdata hnormal,if_neg (by omega)]

theorem check_inside (hdata : mgr.mGameEvent entry=data)
    (hnormal : data.state=.GAMEEVENT_NORMAL) (hp : data.period≠0) (hstart : data.start < t)
    (hend : t < data.end) :
    mgr.CheckOneGameEvent entry t=some (decide (data.passed t < data.window)) := by
  rw [check_normal hdata hnormal,if_pos ⟨hstart,hend⟩,if_neg hp]

/-- The seconds until the window or the period ends. -/
def untilChange (data : GameEventData) (t : ℤ) : ℤ :=
  if data.passed t < data.window then data.window-data.passed t
  else data.period-data.passed t

theorem untilChange_bounds (hp : data.period≠0) (t : ℤ) :
    0 < untilChange data t ∧ untilChange data t < 2^32 := by
  have hpassed := passed_bounds hp t
  have hperiod := period_bounds data
  have hwindow := window_bounds data
  unfold untilChange
  by_cases h : data.passed t < data.window
  · rw [if_pos h]
    omega
  · rw [if_neg h]
    omega

theorem next_within (hdata : mgr.mGameEvent entry=data)
    (hnormal : data.state=.GAMEEVENT_NORMAL) (hp : data.period≠0) (hstart : data.start ≤ t)
    (hend : t ≤ data.end) :
    mgr.NextCheck entry t=
      some (if data.end < t+untilChange data t then data.end-t else untilChange data t) := by
  have hbounds := untilChange_bounds hp t
  have hdelay :
      (if data.passed t < data.window then uint32 (data.window-data.passed t)
        else uint32 (data.period-data.passed t))=untilChange data t := by
    rw [← uint32_of_lt (by omega) hbounds.2,untilChange,apply_ite uint32]
  simp only [NextCheck,hdata,hnormal,reduceCtorEq,or_self,false_and,if_false,hp]
  rw [if_neg (by omega),if_neg (by omega),hdelay]
  by_cases h : data.end < t+untilChange data t
  · rw [if_pos h,if_pos h,uint32_of_lt (by omega) (by omega)]
  · rw [if_neg h,if_neg h]

/-- No difference wraps between the start and the end of an event. -/
theorem converted_within (hp : data.period≠0) (hstart : data.start ≤ t) (hend : t ≤ data.end) :
    ∀ difference∈converted data t,0 ≤ difference ∧ difference < 2^32 := by
  have hbounds := untilChange_bounds hp t
  intro difference hmem
  have hdelay : converted data t=
      if data.end < t+uint32 (untilChange data t) then [untilChange data t,data.end-t]
      else [untilChange data t] := by
    unfold converted
    rw [if_neg (by omega),if_neg (by omega)]
    rfl
  rw [hdelay,uint32_of_lt (by omega) hbounds.2] at hmem
  by_cases h : data.end < t+untilChange data t
  · rw [if_pos h,List.mem_pair] at hmem
    omega
  · rw [if_neg h,List.mem_singleton] at hmem
    omega

/-- Between the start and the end of an event what is left is what it does until it is looked at
again. -/
theorem punctual_within (hdata : mgr.mGameEvent entry=data)
    (hnormal : data.state=.GAMEEVENT_NORMAL) (hp : data.period≠0) (hstart : data.start ≤ t)
    (hend : t ≤ data.end) {delay : ℤ} {active : Bool}
    (hdelay : delay=if data.end < t+untilChange data t then data.end-t else untilChange data t)
    (hcheck : mgr.CheckOneGameEvent entry t=some active) :
    Punctual mgr entry t ↔
      (∀ time,t < time → time < t+delay → mgr.CheckOneGameEvent entry time=some active) ∧
      (mgr.CheckOneGameEvent entry (t+delay+1)=some active →
        mgr.CheckOneGameEvent entry (t+delay)=some active) := by
  have hnext := next_within hdata hnormal hp hstart hend
  rw [← hdelay] at hnext
  unfold Punctual
  rw [hcheck,hnext]
  constructor
  · rintro ⟨active',delay',hactive,hdelay',hsteady,hskip,_⟩
    injection hactive with hactive
    injection hdelay' with hdelay'
    rw [hactive,hdelay']
    exact ⟨hsteady,hskip⟩
  · intro h
    refine ⟨active,delay,rfl,rfl,h.1,h.2,?_⟩
    rw [hdata]
    exact converted_within hp hstart hend

/-! ## The times of an event -/

theorem punctual_over (hdata : mgr.mGameEvent entry=data)
    (hnormal : data.state=.GAMEEVENT_NORMAL) (h : data.end < t) : Punctual mgr entry t := by
  have hnext : mgr.NextCheck entry t=some max_ge_check_delay := by
    simp only [NextCheck,hdata,hnormal,reduceCtorEq,or_self,false_and,if_false,if_pos h]
  refine ⟨false,max_ge_check_delay,check_outside hdata hnormal (by omega),hnext,?_,?_,?_⟩
  · intro time htime _
    exact check_outside hdata hnormal (by omega)
  · intro _
    exact check_outside hdata hnormal (by unfold max_ge_check_delay; omega)
  · intro difference hmem
    rw [hdata,converted,if_pos h] at hmem
    cases hmem

/-- Before its start an event is looked at again in its first second, as long as the seconds until
then fit a word. -/
theorem punctual_before (hdata : mgr.mGameEvent entry=data)
    (hnormal : data.state=.GAMEEVENT_NORMAL) (hend : t ≤ data.end) (hstart : t < data.start) :
    Punctual mgr entry t ↔ data.start-t < 2^32 := by
  have hconverted : converted (mgr.mGameEvent entry) t=[data.start-t] := by
    rw [hdata,converted,if_neg (by omega),if_pos hstart]
  have hnext : mgr.NextCheck entry t=some (uint32 (data.start-t)) := by
    simp only [NextCheck,hdata,hnormal,reduceCtorEq,or_self,false_and,if_false]
    rw [if_neg (by omega),if_pos hstart]
  constructor
  · rintro ⟨_,_,_,_,_,_,hdifference⟩
    rw [hconverted] at hdifference
    exact (hdifference _ (List.mem_singleton_self _)).2
  · intro hnear
    rw [uint32_of_lt (by omega) hnear] at hnext
    refine ⟨false,data.start-t,check_outside hdata hnormal (by omega),hnext,?_,?_,?_⟩
    · intro time _ htime
      exact check_outside hdata hnormal (by omega)
    · intro _
      exact check_outside hdata hnormal (by omega)
    · intro difference hmem
      rw [hconverted,List.mem_singleton] at hmem
      omega

theorem not_punctual_period (hdata : mgr.mGameEvent entry=data)
    (hnormal : data.state=.GAMEEVENT_NORMAL) (hp : data.period=0) (hstart : data.start ≤ t)
    (hend : t ≤ data.end) : ¬Punctual mgr entry t := by
  have hnext : mgr.NextCheck entry t=none := by
    simp only [NextCheck,hdata,hnormal,reduceCtorEq,or_self,false_and,if_false,hp,if_true]
    rw [if_neg (by omega),if_neg (by omega)]
  rintro ⟨_,_,_,hdelay,_⟩
  rw [hnext] at hdelay
  cases hdelay

/-- In its first second an event is looked at again once its first window is over. -/
theorem punctual_start (hdata : mgr.mGameEvent entry=data)
    (hnormal : data.state=.GAMEEVENT_NORMAL) (hp : data.period≠0) (hstart : data.start=t)
    (hend : t ≤ data.end) :
    Punctual mgr entry t ↔ (data.window≠0 → data.end < data.start+2) := by
  have hcheck : mgr.CheckOneGameEvent entry t=some false :=
    check_outside hdata hnormal (by omega)
  have hpassed : data.passed t=0 := by rw [← hstart,passed_start]
  have hperiod := period_bounds data
  have hwindow := window_bounds data
  rw [punctual_within hdata hnormal hp (by omega) hend rfl hcheck]
  constructor
  · intro h hne
    by_contra hlong
    have hchange : untilChange data t=data.window := by
      rw [untilChange,if_pos (by omega),hpassed,Int.sub_zero]
    have hsecond := h.1 (t+1) (by omega) (by
      rw [hchange]
      split <;> omega)
    rw [check_inside hdata hnormal hp (by omega) (by omega),
      passed_add (by omega) hp (by omega)] at hsecond
    simp only [hpassed,Option.some.injEq,decide_eq_false_iff_not] at hsecond
    omega
  · intro h
    by_cases hne : data.window=0
    · have hnever : ∀ time,mgr.CheckOneGameEvent entry time=some false := by
        intro time
        rw [check_normal hdata hnormal,if_neg hp,hne]
        have hpos := (passed_bounds hp time).1
        rw [decide_eq_false (by omega),ite_self]
      exact ⟨fun time _ _ => hnever time,fun _ => hnever _⟩
    · have hshort := h hne
      have hbounds := untilChange_bounds hp t
      constructor
      · intro time _ _
        exact check_outside hdata hnormal (by
          revert ‹time < _›
          split <;> omega)
      · intro _
        exact check_outside hdata hnormal (by split <;> omega)

/-- In its last second an event is over. -/
theorem punctual_end (hdata : mgr.mGameEvent entry=data)
    (hnormal : data.state=.GAMEEVENT_NORMAL) (hp : data.period≠0) (hstart : data.start < t)
    (hend : t=data.end) : Punctual mgr entry t := by
  have hbounds := untilChange_bounds hp t
  have hcheck : mgr.CheckOneGameEvent entry t=some false :=
    check_outside hdata hnormal (by omega)
  rw [punctual_within hdata hnormal hp (by omega) (by omega) rfl hcheck,if_pos (by omega)]
  constructor
  · intro time _ htime
    omega
  · intro _
    exact check_outside hdata hnormal (by omega)

/-- In a window an event is looked at again when it is over. -/
theorem punctual_window (hdata : mgr.mGameEvent entry=data)
    (hnormal : data.state=.GAMEEVENT_NORMAL) (hp : data.period≠0) (hstart : data.start < t)
    (hend : t < data.end) (h : data.passed t < data.window) : Punctual mgr entry t := by
  have hcheck : mgr.CheckOneGameEvent entry t=some true := by
    rw [check_inside hdata hnormal hp hstart hend,decide_eq_true h]
  have hchange : untilChange data t=data.window-data.passed t := if_pos h
  have hpassed := passed_bounds hp t
  have hperiod := period_bounds data
  have hwindow := window_bounds data
  -- a window that is not shorter than the period never ends
  have hactive : ∀ k,0 ≤ k → k < data.window-data.passed t → t+k < data.end →
      mgr.CheckOneGameEvent entry (t+k)=some true := by
    intro k hk hlt hbefore
    rw [check_inside hdata hnormal hp (by omega) hbefore]
    have hin : data.passed (t+k) < data.window := by
      by_cases hwithin : data.passed t+k < data.period
      · rw [passed_add hk hp hwithin]
        omega
      · have hless := (passed_bounds hp (t+k)).2
        omega
    rw [decide_eq_true hin]
  rw [punctual_within hdata hnormal hp (by omega) (by omega) rfl hcheck,hchange]
  constructor
  · intro time hlow hhigh
    have hsum : time=t+(time-t) := by omega
    rw [hsum]
    apply hactive
    · omega
    · revert hhigh
      split <;> omega
    · revert hhigh
      split <;> omega
  · by_cases hcut : data.end < t+(data.window-data.passed t)
    · rw [if_pos hcut]
      intro hagain
      rw [check_outside hdata hnormal (by omega)] at hagain
      cases hagain
    · rw [if_neg hcut]
      intro hagain
      by_cases hover : data.end ≤ t+(data.window-data.passed t)+1
      · rw [check_outside hdata hnormal (by omega)] at hagain
        cases hagain
      rw [check_inside hdata hnormal hp (by omega) (by omega)]
      by_cases hshort : data.window < data.period
      · -- lengths of windows and periods are whole minutes, so a pause has more than one second
        have hsum : t+(data.window-data.passed t)+1=t+(data.window-data.passed t+1) := by
          omega
        rw [hsum,check_inside hdata hnormal hp (by omega) (by omega),
          passed_add (by omega) hp (by omega)] at hagain
        simp only [Option.some.injEq,decide_eq_true_eq] at hagain
        omega
      · have hless := (passed_bounds hp (t+(data.window-data.passed t))).2
        rw [decide_eq_true (by omega)]

/-- In a pause an event is looked at again in the second one of its next window. -/
theorem punctual_pause (hdata : mgr.mGameEvent entry=data)
    (hnormal : data.state=.GAMEEVENT_NORMAL) (hp : data.period≠0) (hstart : data.start < t)
    (hend : t < data.end) (h : data.window ≤ data.passed t) :
    Punctual mgr entry t ↔
      (data.window≠0 → data.end≠t+(data.period-data.passed t)+1) := by
  have hcheck : mgr.CheckOneGameEvent entry t=some false := by
    rw [check_inside hdata hnormal hp hstart hend,decide_eq_false (by omega)]
  have hchange : untilChange data t=data.period-data.passed t := if_neg (by omega)
  have hpassed := passed_bounds hp t
  have hperiod := period_bounds data
  have hwindow := window_bounds data
  have hpause : ∀ time,t < time → time < t+(data.period-data.passed t) →
      mgr.CheckOneGameEvent entry time=some false := by
    intro time hlow hhigh
    by_cases hover : data.end ≤ time
    · exact check_outside hdata hnormal (by omega)
    · have hsum : time=t+(time-t) := by omega
      rw [check_inside hdata hnormal hp (by omega) (by omega),hsum,
        passed_add (by omega) hp (by omega),decide_eq_false (by omega)]
  have hfirst : data.passed (t+(data.period-data.passed t))=0 := by
    rw [passed_next (by omega) (by omega)]
    omega
  have hsecond : data.passed (t+(data.period-data.passed t)+1)=1 := by
    have hsum : t+(data.period-data.passed t)+1=t+(data.period-data.passed t+1) := by omega
    rw [hsum,passed_next (by omega) (by omega)]
    omega
  rw [punctual_within hdata hnormal hp (by omega) (by omega) rfl hcheck,hchange]
  by_cases hcut : data.end < t+(data.period-data.passed t)
  · rw [if_pos hcut]
    constructor
    · intro _ _
      omega
    intro _
    constructor
    · intro time hlow hhigh
      exact hpause time hlow (by omega)
    · intro _
      exact check_outside hdata hnormal (by omega)
  · rw [if_neg hcut]
    constructor
    · rintro ⟨_,hskip⟩ hne heq
      rw [check_outside hdata hnormal (by omega),
        check_inside hdata hnormal hp (by omega) (by omega),hfirst] at hskip
      have hfalse := hskip rfl
      simp only [Option.some.injEq,decide_eq_false_iff_not] at hfalse
      omega
    · intro hwhole
      refine ⟨hpause,?_⟩
      intro hagain
      by_cases hne : data.window=0
      · rw [check_normal hdata hnormal,if_neg hp,hne,hfirst,decide_eq_false (by omega),ite_self]
      have hmore := hwhole hne
      by_cases hover : data.end ≤ t+(data.period-data.passed t)
      · exact check_outside hdata hnormal (by omega)
      · rw [check_inside hdata hnormal hp (by omega) (by omega),hsecond] at hagain
        simp only [Option.some.injEq,decide_eq_false_iff_not] at hagain
        omega

/-- A normal event is handled on time exactly at the times at which it is not in its first second,
its last period has more than a second, and its numbers fit their words. -/
theorem punctual_iff (mgr : GameEventMgr) (entry : ℕ) (t : ℤ)
    (hnormal : (mgr.mGameEvent entry).state=.GAMEEVENT_NORMAL) :
    Punctual mgr entry t ↔ OnTime (mgr.mGameEvent entry) t := by
  obtain ⟨data,hdata⟩ : ∃ data,mgr.mGameEvent entry=data := ⟨_,rfl⟩
  rw [hdata] at hnormal ⊢
  by_cases hover : data.end < t
  · refine iff_of_true (punctual_over hdata hnormal hover) ⟨?_,?_,?_,?_⟩ <;> intros <;> omega
  by_cases hbefore : t < data.start
  · rw [punctual_before hdata hnormal (by omega) hbefore]
    constructor
    · intro hnear
      refine ⟨fun _ => hnear,?_,?_,?_⟩ <;> intros <;> omega
    · intro h
      exact h.near (by omega)
  by_cases hp : data.period=0
  · apply iff_of_false (not_punctual_period hdata hnormal hp (by omega) (by omega))
    intro h
    exact h.period (by omega) (by omega) hp
  by_cases hstart : data.start=t
  · rw [punctual_start hdata hnormal hp hstart (by omega)]
    constructor
    · intro hbegun
      refine ⟨?_,fun _ _ => hp,fun _ => hbegun,?_⟩ <;> intros <;> omega
    · intro h
      exact h.begun hstart
  by_cases hend : t=data.end
  · apply iff_of_true (punctual_end hdata hnormal hp (by omega) hend)
    refine ⟨?_,fun _ _ => hp,?_,?_⟩ <;> intros <;> omega
  by_cases hwindow : data.passed t < data.window
  · apply iff_of_true (punctual_window hdata hnormal hp (by omega) (by omega) hwindow)
    refine ⟨?_,fun _ _ => hp,?_,?_⟩ <;> intros <;> omega
  rw [punctual_pause hdata hnormal hp (by omega) (by omega) (by omega)]
  constructor
  · intro hwhole
    refine ⟨?_,fun _ _ => hp,?_,fun _ _ _ => hwhole⟩ <;> intros <;> omega
  · intro h
    exact h.whole (by omega) (by omega) (by omega)

/-- A holiday of half an hour each hour: in its second hour it is handled on time. -/
def hourly : GameEventMgr where
  mGameEvent := fun _ => ⟨0,1000000,0,60,30,.GAMEEVENT_NORMAL,[],[]⟩
  size := 2
  m_ActiveEvents := []

theorem punctual_hourly :
    (hourly.mGameEvent 1).state=.GAMEEVENT_NORMAL ∧ Punctual hourly 1 4000 :=
  ⟨rfl,(punctual_iff hourly 1 4000 rfl).mpr
    ⟨by decide,fun _ _ => by decide,by decide,fun _ _ => by decide⟩⟩

/-- In its first second the event is not active yet, and it is looked at again when its window is
over. -/
theorem not_punctual_first :
    ¬∀ (mgr : GameEventMgr) (entry : ℕ) (t : ℤ),
      (mgr.mGameEvent entry).state=.GAMEEVENT_NORMAL → 1 ≤ (mgr.mGameEvent entry).occurence →
      (mgr.mGameEvent entry).length ≤ (mgr.mGameEvent entry).occurence →
      Punctual mgr entry t := by
  intro h
  obtain ⟨active,delay,hactive,hdelay,hsteady,_⟩ := h hourly 1 0 rfl (by decide) (by decide)
  have hfalse : hourly.CheckOneGameEvent 1 0=some false := rfl
  have hlong : hourly.NextCheck 1 0=some 1800 := rfl
  have htrue : hourly.CheckOneGameEvent 1 1=some true := rfl
  rw [hfalse] at hactive
  rw [hlong] at hdelay
  injection hactive with hactive
  injection hdelay with hdelay
  rw [← hactive,← hdelay] at hsteady
  have hone := hsteady 1 (by decide) (by decide)
  rw [htrue] at hone
  cases hone

/-! ## The delay of the manager -/

/-- The delay of an event depends on this event only. -/
theorem NextCheck_congr {other : GameEventMgr}
    (h : other.mGameEvent entry=mgr.mGameEvent entry) (t : ℤ) :
    other.NextCheck entry t=mgr.NextCheck entry t := by
  simp only [NextCheck,h]

theorem NextCheck_bounds {delay : ℤ} (h : mgr.NextCheck entry t=some delay) : 0 ≤ delay := by
  have hword : ∀ n,0 ≤ uint32 n := fun n => Int.emod_nonneg n (by decide)
  have hwindow := (window_bounds (mgr.mGameEvent entry)).1
  have hday : 0 ≤ max_ge_check_delay := by decide
  simp only [NextCheck] at h
  repeat' split at h
  all_goals first
    | (injection h with h; rw [← h]; first | exact hword _ | exact hwindow | exact hday)
    | cases h

theorem delayed_eq {update next : Updating} {itr : ℕ}
    (h : update.delayed itr t=some next) :
    ∃ delay,update.mgr.NextCheck itr t=some delay ∧ next.mgr=update.mgr ∧
      next.nextEventDelay=min delay update.nextEventDelay := by
  unfold Updating.delayed at h
  cases hdelay : update.mgr.NextCheck itr t with
  | none =>
      rw [hdelay] at h
      cases h
  | some delay =>
      rw [hdelay] at h
      injection h with h
      refine ⟨delay,rfl,by rw [← h],?_⟩
      rw [← h]
      dsimp only
      split <;> omega

theorem conditions_frame {itr : ℕ} (hother : entry≠itr) :
    (mgr.CheckOneGameEventConditions itr t).1.mGameEvent entry=mgr.mGameEvent entry := by
  simp only [CheckOneGameEventConditions]
  split
  · rfl
  · exact Function.update_of_ne hother _ _

/-- What `Update` does at one event: a normal event stays as it is, and the delay is never longer
than that of a normal event that is examined. -/
structure Examined (t : ℤ) (itr : ℕ) (update next : Updating) : Prop where
  frame : ∀ entry,(update.mgr.mGameEvent entry).state=.GAMEEVENT_NORMAL →
    next.mgr.mGameEvent entry=update.mgr.mGameEvent entry
  /-- The delay never grows. -/
  less : next.nextEventDelay ≤ update.nextEventDelay
  pos : 0 ≤ update.nextEventDelay → 0 ≤ next.nextEventDelay
  due : (update.mgr.mGameEvent itr).state=.GAMEEVENT_NORMAL →
    ∃ delay,update.mgr.NextCheck itr t=some delay ∧ next.nextEventDelay ≤ delay

theorem examined_delayed {update queued next : Updating} {itr : ℕ}
    (h : queued.delayed itr t=some next)
    (hqueued : queued.nextEventDelay=update.nextEventDelay)
    (hframe : ∀ entry,(update.mgr.mGameEvent entry).state=.GAMEEVENT_NORMAL →
      queued.mgr.mGameEvent entry=update.mgr.mGameEvent entry) :
    Examined t itr update next := by
  obtain ⟨delay,hdelay,hmgr,hless⟩ := delayed_eq h
  have hpos := NextCheck_bounds hdelay
  constructor
  · intro entry hentry
    rw [hmgr]
    exact hframe entry hentry
  · omega
  · omega
  · intro hitr
    refine ⟨delay,?_,by omega⟩
    rw [← NextCheck_congr (hframe itr hitr),hdelay]

/-- `Update` at one event. -/
theorem examined_event {update next : Updating} {itr : ℕ}
    (h : update.event t itr=some next) : Examined t itr update next := by
  unfold Updating.event at h
  cases hcheck : update.mgr.CheckOneGameEvent itr t with
  | none =>
      rw [hcheck] at h
      cases h
  | some active =>
      rw [hcheck] at h
      simp only [Option.bind_eq_bind,Option.bind_some] at h
      cases active with
      | false =>
          rw [if_neg Bool.false_ne_true] at h
          exact examined_delayed h rfl fun _ _ => rfl
      | true =>
          rw [if_pos rfl] at h
          by_cases hphase : (update.mgr.mGameEvent itr).state=.GAMEEVENT_WORLD_NEXTPHASE ∧
              (update.mgr.mGameEvent itr).nextstart ≤ t
          · rw [if_pos hphase] at h
            injection h with h
            subst h
            constructor
            · intro entry hentry
              have hother : entry≠itr := by
                intro heq
                rw [heq,hphase.1] at hentry
                cases hentry
              exact Function.update_of_ne hother _ _
            · exact Int.le_refl _
            · exact id
            · intro hitr
              rw [hphase.1] at hitr
              cases hitr
          · rw [if_neg hphase] at h
            refine examined_delayed h rfl ?_
            intro entry hentry
            by_cases hconditions :
                (update.mgr.mGameEvent itr).state=.GAMEEVENT_WORLD_CONDITIONS
            · have hother : entry≠itr := by
                intro heq
                rw [heq,hconditions] at hentry
                cases hentry
              simp only [if_pos hconditions]
              exact conditions_frame hother
            · simp only [if_neg hconditions]

/-- What `Update` does at some events. -/
theorem examined_events {update next : Updating} (events : List ℕ)
    (h : events.foldlM (Updating.event t) update=some next)
    (hnormal : (update.mgr.mGameEvent entry).state=.GAMEEVENT_NORMAL) :
    next.nextEventDelay ≤ update.nextEventDelay ∧
      (0 ≤ update.nextEventDelay → 0 ≤ next.nextEventDelay) ∧
      (entry∈events → ∃ delay,update.mgr.NextCheck entry t=some delay ∧
        next.nextEventDelay ≤ delay) := by
  induction events generalizing update with
  | nil =>
      injection h with h
      rw [h]
      refine ⟨Int.le_refl _,id,?_⟩
      intro hmem
      cases hmem
  | cons itr events ih =>
      rw [List.foldlM_cons] at h
      cases hstep : update.event t itr with
      | none =>
          rw [hstep] at h
          cases h
      | some step =>
          rw [hstep] at h
          have hexamined := examined_event hstep
          have hkept := hexamined.frame entry hnormal
          obtain ⟨hless,hpos,hdue⟩ := ih h (by rw [hkept]; exact hnormal)
          refine ⟨hless.trans hexamined.less,fun hzero => hpos (hexamined.pos hzero),?_⟩
          intro hmem
          rcases List.mem_cons.mp hmem with heq | hrest
          · subst heq
            obtain ⟨delay,hdelay,hle⟩ := hexamined.due hnormal
            exact ⟨delay,hdelay,hless.trans hle⟩
          · obtain ⟨delay,hdelay,hle⟩ := hdue hrest
            rw [NextCheck_congr hkept] at hdelay
            exact ⟨delay,hdelay,hle⟩

/-- Starting the events that are queued leaves the delay or makes it none. -/
theorem startEvents_delay (t : ℤ) (ids : List ℕ) (start : GameEventMgr×ℤ) :
    (ids.foldl (fun started itr =>
      ((started.1.StartEvent itr t).1,
        if (started.1.StartEvent itr t).2 then 0 else started.2)) start).2=start.2 ∨
    (ids.foldl (fun started itr =>
      ((started.1.StartEvent itr t).1,
        if (started.1.StartEvent itr t).2 then 0 else started.2)) start).2=0 := by
  induction ids generalizing start with
  | nil => exact Or.inl rfl
  | cons itr ids ih =>
      rw [List.foldl_cons]
      rcases ih ((start.1.StartEvent itr t).1,
        if (start.1.StartEvent itr t).2 then 0 else start.2) with hkept | hzero
      · rw [hkept]
        split
        · exact Or.inr rfl
        · exact Or.inl rfl
      · exact Or.inr hzero

/-- The manager comes back one second after the delay of each normal event at the latest. -/
theorem Update_wait {after : GameEventMgr} {wait : ℤ} (h : mgr.Update t=some (after,wait))
    (hentry : 1 ≤ entry) (hsize : entry < mgr.size)
    (hnormal : (mgr.mGameEvent entry).state=.GAMEEVENT_NORMAL) :
    ∃ delay,mgr.NextCheck entry t=some delay ∧ wait ≤ (delay+1)*1000 := by
  unfold GameEventMgr.Update at h
  cases hloop : mgr.examine t with
  | none =>
      rw [hloop] at h
      cases h
  | some update =>
      rw [hloop] at h
      simp only [Option.bind_eq_bind,Option.bind_some,Option.some.injEq,Prod.mk.injEq] at h
      have hmem : entry∈List.range' 1 (mgr.size-1) := by
        rw [List.mem_range'_1]
        omega
      obtain ⟨hless,hpos,hdue⟩ := examined_events _ hloop hnormal
      obtain ⟨delay,hdelay,hle⟩ := hdue hmem
      have hday : max_ge_check_delay=86400 := rfl
      simp only [hday] at hless hpos
      refine ⟨delay,hdelay,?_⟩
      rw [← h.2]
      rcases startEvents_delay t update.activate (update.mgr,update.nextEventDelay) with
        hkept | hzero
      · rw [hkept]
        simp only [uint32]
        omega
      · rw [hzero]
        simp only [uint32]
        omega

/-- In its second hour the holiday is looked at again within a second of its end. -/
theorem Update_wait_hourly :
    ∃ delay,hourly.NextCheck 1 4000=some delay ∧
      (((hourly.Update 4000).map Prod.snd).getD 0) ≤ (delay+1)*1000 := by
  have hsome : (hourly.Update 4000).isSome=true := by decide
  obtain ⟨⟨after,wait⟩,hupdate⟩ := Option.isSome_iff_exists.mp hsome
  obtain ⟨delay,hdelay,hwait⟩ := Update_wait hupdate (Nat.le_refl 1) (by decide) rfl
  exact ⟨delay,hdelay,by rw [hupdate]; exact hwait⟩

end Projectnelth.GameEventTiming
