import Mathlib
import Projectnelth.InstanceResetTables
import Projectnelth.InstanceResetRuns

/-!
# When the reset times are right at the start

The reset time of an instance is right where its respawn time was the one that was looked at, or
nothing had to change. The reset time of a map is right where its periods are whole days, the old
time stands at the hour of the configuration, and no period too many is added for a reset of today
whose hour is still to come.
-/

namespace Projectnelth.InstanceResetSchedule

open StableMultimap InstanceSaveManager

/-! ## What is asked for -/

/-- The reset time an instance is to get. -/
def Tables.expected (T : Tables) (row : InstanceRow) : ℕ :=
  match latestRespawn T.respawns row.id with
  | some t => t+7200
  | none => row.resetTime.toNat

/-- The individual events of an instance. -/
def individual (id : UInt32) (x : ℤ×InstResetEvent) : Bool :=
  x.2.type=0 ∧ x.2.instanceId.toUInt32=id

/-- The stored reset time of a map, where one existed. -/
def Tables.old (T : Tables) (pair : Pair) : Option UInt32 :=
  (T.resetTimes.find? fun row => row.1=pair).map Prod.snd

/-- A time is reached from an old one by the fewest periods. -/
def Fewest (now period old t : ℤ) : Prop :=
  ∃ n : ℕ,t=old+n*period ∧ ∀ m < n,old+m*period ≤ now

/-- The reset time a map is to get. -/
structure Renewed (e : Env) (now : ℤ) (pair : Pair) (old : Option UInt32) (t : ℤ) : Prop where
  /-- It is still to come. -/
  later : now < t
  /-- It stands at the hour of the configuration. -/
  hour : DAY∣t-e.diff
  /-- It is the next one after an old time. -/
  fewest : ∀ o∈old,o≠0 → Fewest now (e.period pair) o.toNat t

/-- All reset times are as they are to be after loading. -/
structure Restored (e : Env) (T : Tables) (now : ℤ) : Prop where
  table : ∀ row∈T.instances,row.resetTime≠0 → ∃ row'∈(T.LoadResetTimes e now).2,
    row'.id=row.id ∧ row'.pair=row.pair ∧ row'.resetTime.toNat=T.expected row
  /-- Where it is still to come there is one event for it. -/
  events : ∀ row∈T.instances,row.resetTime≠0 → now < T.expected row →
    ((T.LoadResetTimes e now).1.queue.filter (individual row.id))=
      [((T.expected row : ℤ),InstResetEvent.new 0 row.pair row.id)]
  /-- Each map that is reset as a whole has the right reset time. -/
  maps : ∀ pair∈e.resetMaps,
    Renewed e now pair (T.old pair) ((T.LoadResetTimes e now).1.resetTimes pair)

/-! ## When it is so -/

/-- The respawn time of an instance was looked at, or it had changed nothing. -/
def Tables.OnTime (T : Tables) (row : InstanceRow) : Prop :=
  ∀ t,latestRespawn T.respawns row.id=some t →
    (T.maxRespawns.head?.map Prod.snd=some row.id ∧ t+7200 < 2^32) ∨ row.resetTime.toNat=t+7200

/-- The old time of a map and its period lead to a right reset time. -/
def Env.Lines (e : Env) (now : ℤ) (pair : Pair) : Option UInt32 → Prop
  | none => DAY∣e.period pair
  | some o =>
    let stored := (o.toNat : ℤ)/DAY*DAY+e.diff
    let midnight := stored/DAY*DAY
    let passed := (now/DAY*DAY-midnight)/e.period pair
    if stored=0 then o=0 ∧ DAY∣e.period pair
    else if stored < now then
      DAY∣(passed+1)*e.period pair ∧
        (o≠0 → e.period pair∣midnight+e.diff-o.toNat ∧
          midnight+e.diff+passed*e.period pair ≤ now)
    else stored≠now ∧
      (o≠0 → e.period pair∣stored-o.toNat ∧ (stored=o.toNat ∨ stored-e.period pair ≤ now))

/-- The tables and the configuration for which the reset times are right. -/
structure Regular (e : Env) (T : Tables) (now : ℤ) : Prop where
  /-- No respawn time was left out. -/
  onTime : ∀ row∈T.instances,row.resetTime≠0 → T.OnTime row
  /-- The ids of instances whose reset is still to come have sixteen bits. -/
  short : ∀ row∈T.instances,row.resetTime≠0 → now < T.expected row → row.id.toNat < 2^16
  /-- The times of the maps fit their periods. -/
  lines : ∀ pair∈e.resetMaps,e.Lines now pair (T.old pair)

/-! ## The reset time of a map -/

section Arithmetic

variable {now period old hour midnight t : ℤ}

/-- A time past the old one is reached by the fewest periods where one period less does not lead
past the present. -/
theorem fewest_iff (hperiod : 0 < period) (hnotBack : -period < t-old) :
    Fewest now period old t ↔ period∣t-old ∧ (t=old ∨ t-period ≤ now) := by
  constructor
  · rintro ⟨n,ht,hleast⟩
    have hdvd : period∣t-old := ⟨n,by rw [ht]; ring⟩
    cases n with
    | zero =>
      rw [Nat.cast_zero,zero_mul,add_zero] at ht
      exact ⟨hdvd,Or.inl ht⟩
    | succ n =>
      have hle := hleast n (Nat.lt_succ_self n)
      refine ⟨hdvd,Or.inr ?_⟩
      rw [ht]
      push_cast
      linarith
  · rintro ⟨⟨j,hj⟩,hclose⟩
    have hnonneg : 0 ≤ j := by
      by_contra hneg
      have hle : j ≤ -1 := by omega
      have hmul : period*j ≤ period*(-1) := mul_le_mul_of_nonneg_left hle hperiod.le
      linarith
    obtain ⟨n,rfl⟩ := Int.eq_ofNat_of_zero_le hnonneg
    have ht : t=old+n*period := by linarith [mul_comm period (n : ℤ)]
    refine ⟨n,ht,?_⟩
    intro m hm
    have hstep : (m : ℤ)*period ≤ (n-1 : ℤ)*period :=
      mul_le_mul_of_nonneg_right (by omega) hperiod.le
    cases hclose with
    | inl hsame =>
      have hzero : (n : ℤ)*period=0 := by linarith
      have hn : (n : ℤ)=0 := by
        cases mul_eq_zero.mp hzero with
        | inl h => exact h
        | inr h => exact absurd h hperiod.ne'
      omega
    | inr hle => linarith

/-- The next reset after a midnight that is past, counted from the midnight of today. -/
theorem today_lt_next (now midnight : ℤ) (hperiod : 0 < period) :
    now/DAY*DAY-midnight < ((now/DAY*DAY-midnight)/period+1)*period := by
  have hmod := Int.emod_lt_of_pos (now/DAY*DAY-midnight) hperiod
  have hsplit := Int.mul_ediv_add_emod (now/DAY*DAY-midnight) period
  linarith [mul_comm period ((now/DAY*DAY-midnight)/period)]

/-- A midnight after the one of today is past the present. -/
theorem lt_of_midnight (hmidnight : DAY∣midnight) (h : now/DAY*DAY < midnight) : now < midnight := by
  obtain ⟨k,rfl⟩ := hmidnight
  unfold DAY at h ⊢
  omega

end Arithmetic

section Maps

variable {e : Env} {d : Database} {now : ℤ} {pair : Pair} {o : UInt32} {s : InstanceSaveManager}

theorem period_pos (e : Env) (pair : Pair) : 0 < e.period pair := by
  have hday := day_le_period e pair
  unfold DAY at hday
  omega

theorem day_dvd_midnight (t : ℤ) : DAY∣t/DAY*DAY := Dvd.intro_left _ rfl

/-- A map without a stored time. -/
theorem renewed_new (h : s.resetTimes pair=0) :
    Renewed e now pair none (s.firstTime e now pair) ↔ e.Lines now pair none := by
  have hperiod := day_le_period e pair
  have hdiff := diff_nonneg e
  have htoday : now < now/DAY*DAY+DAY := by
    unfold DAY
    omega
  have htime : s.firstTime e now pair=now/DAY*DAY+e.period pair+e.diff := by
    unfold firstTime
    dsimp only
    rw [if_pos h,if_neg (by linarith)]
  have hhour : DAY∣s.firstTime e now pair-e.diff ↔ DAY∣e.period pair := by
    rw [htime,add_sub_cancel_right]
    exact Int.dvd_add_right (day_dvd_midnight now)
  constructor
  · intro hrenewed
    exact hhour.mp hrenewed.hour
  intro hlines
  refine ⟨?_,hhour.mpr hlines,?_⟩
  · rw [htime]
    linarith
  · intro o ho
    cases ho

/-- A stored time that counts as none. -/
theorem renewed_zero (hzero : (o.toNat : ℤ)/DAY*DAY+e.diff=0)
    (h : s.resetTimes pair=0) :
    Renewed e now pair (some o) (s.firstTime e now pair) ↔ o=0 ∧ DAY∣e.period pair := by
  have hperiod := day_le_period e pair
  have hdiff := diff_nonneg e
  have hday : 0 ≤ (o.toNat : ℤ)/DAY*DAY := by
    unfold DAY
    omega
  have hnodiff : e.diff=0 := by linarith
  have hsmall : (o.toNat : ℤ) < DAY := by
    have hmidnight : (o.toNat : ℤ)/DAY*DAY=0 := by linarith
    unfold DAY at hmidnight ⊢
    omega
  have htoday : now < now/DAY*DAY+DAY := by
    unfold DAY
    omega
  have htime : s.firstTime e now pair=now/DAY*DAY+e.period pair := by
    unfold firstTime
    dsimp only
    rw [if_pos h,hnodiff,add_zero,if_neg (by linarith)]
  have hhour : DAY∣s.firstTime e now pair-e.diff ↔ DAY∣e.period pair := by
    rw [htime,hnodiff,sub_zero]
    exact Int.dvd_add_right (day_dvd_midnight now)
  constructor
  · intro hrenewed
    have hwhole := hhour.mp hrenewed.hour
    refine ⟨?_,hwhole⟩
    by_contra hne
    obtain ⟨n,ht,_⟩ := hrenewed.fewest o rfl hne
    have hdvd : DAY∣(o.toNat : ℤ) := by
      have hsum : DAY∣(o.toNat : ℤ)+n*e.period pair := by
        rw [← ht,htime]
        exact Int.dvd_add (day_dvd_midnight now) hwhole
      exact (Int.dvd_add_left (Dvd.dvd.mul_left hwhole _)).mp hsum
    have hno : (o.toNat : ℤ)=0 := by
      obtain ⟨k,hk⟩ := hdvd
      unfold DAY at hk hsmall
      omega
    exact hne (UInt32.toNat.inj (by exact_mod_cast hno))
  · rintro ⟨hno,hwhole⟩
    refine ⟨?_,hhour.mpr hwhole,?_⟩
    · rw [htime]
      linarith
    · intro o' ho' hne
      cases ho'
      exact absurd hno hne

/-- A stored time that is not over. -/
theorem renewed_kept (hnonzero : (o.toNat : ℤ)/DAY*DAY+e.diff≠0)
    (h : s.resetTimes pair=(o.toNat : ℤ)/DAY*DAY+e.diff)
    (hlate : ¬(o.toNat : ℤ)/DAY*DAY+e.diff < now) :
    Renewed e now pair (some o) (s.firstTime e now pair) ↔
      (o.toNat : ℤ)/DAY*DAY+e.diff≠now ∧
        (o≠0 → e.period pair∣(o.toNat : ℤ)/DAY*DAY+e.diff-o.toNat ∧
          ((o.toNat : ℤ)/DAY*DAY+e.diff=o.toNat ∨
            (o.toNat : ℤ)/DAY*DAY+e.diff-e.period pair ≤ now)) := by
  have hperiod := day_le_period e pair
  have hdiff := diff_nonneg e
  have htime : s.firstTime e now pair=(o.toNat : ℤ)/DAY*DAY+e.diff := by
    unfold firstTime
    dsimp only
    rw [h,if_neg hnonzero,if_neg hlate]
  have hback : -e.period pair < (o.toNat : ℤ)/DAY*DAY+e.diff-o.toNat := by
    have hday : (o.toNat : ℤ) < (o.toNat : ℤ)/DAY*DAY+DAY := by
      unfold DAY
      omega
    linarith
  constructor
  · intro hrenewed
    have hlater := hrenewed.later
    rw [htime] at hlater
    refine ⟨hlater.ne',?_⟩
    intro hne
    have hfewest := hrenewed.fewest o rfl hne
    rw [htime] at hfewest
    exact (fewest_iff (period_pos e pair) hback).mp hfewest
  · rintro ⟨hne,hold⟩
    have hlater : now < (o.toNat : ℤ)/DAY*DAY+e.diff :=
      lt_of_le_of_ne (not_lt.mp hlate) (Ne.symm hne)
    refine ⟨?_,?_,?_⟩
    · rw [htime]
      exact hlater
    · rw [htime,add_sub_cancel_right]
      exact day_dvd_midnight _
    intro o' ho' hnonzero'
    cases ho'
    rw [htime]
    exact (fewest_iff (period_pos e pair) hback).mpr (hold hnonzero')

theorem renewed_over (hnonzero : (o.toNat : ℤ)/DAY*DAY+e.diff≠0)
    (h : s.resetTimes pair=(o.toNat : ℤ)/DAY*DAY+e.diff)
    (hpast : (o.toNat : ℤ)/DAY*DAY+e.diff < now) {midnight passed : ℤ}
    (hmidnight : midnight=((o.toNat : ℤ)/DAY*DAY+e.diff)/DAY*DAY)
    (hpassed : passed=(now/DAY*DAY-midnight)/e.period pair) :
    Renewed e now pair (some o) (s.firstTime e now pair) ↔
      DAY∣(passed+1)*e.period pair ∧
        (o≠0 → e.period pair∣midnight+e.diff-o.toNat ∧
          midnight+e.diff+passed*e.period pair ≤ now) := by
  have hperiod := day_le_period e pair
  have hpos := period_pos e pair
  have hdiff := diff_nonneg e
  have htime : s.firstTime e now pair=midnight+((passed+1)*e.period pair+e.diff) := by
    unfold firstTime
    dsimp only
    rw [h,if_neg hnonzero,if_pos hpast,hpassed,hmidnight]
  have hday : DAY∣midnight := by
    rw [hmidnight]
    exact day_dvd_midnight _
  have htoday : midnight ≤ now/DAY*DAY := by
    rw [hmidnight]
    unfold DAY at hpast ⊢
    omega
  have hfirst : (o.toNat : ℤ)/DAY*DAY ≤ midnight := by
    rw [hmidnight]
    unfold DAY
    omega
  have hold : (o.toNat : ℤ) < midnight+DAY := by
    have hday : (o.toNat : ℤ) < (o.toNat : ℤ)/DAY*DAY+DAY := by
      unfold DAY
      omega
    linarith
  have hcount : 0 ≤ passed := by
    rw [hpassed]
    exact Int.ediv_nonneg (by linarith) hpos.le
  have hsteps : 0 ≤ passed*e.period pair := mul_nonneg hcount hpos.le
  have hnext := today_lt_next now midnight hpos
  rw [← hpassed] at hnext
  have hhour : DAY∣s.firstTime e now pair-e.diff ↔ DAY∣(passed+1)*e.period pair := by
    rw [htime,← add_assoc,add_sub_cancel_right]
    exact Int.dvd_add_right hday
  have hback : -e.period pair < midnight+((passed+1)*e.period pair+e.diff)-o.toNat := by
    rw [add_mul,one_mul]
    linarith
  have hwhole : e.period pair∣midnight+((passed+1)*e.period pair+e.diff)-o.toNat ↔
      e.period pair∣midnight+e.diff-o.toNat := by
    have hsplit : midnight+((passed+1)*e.period pair+e.diff)-o.toNat=
        (passed+1)*e.period pair+(midnight+e.diff-o.toNat) := by ring
    rw [hsplit]
    exact Int.dvd_add_right (Dvd.intro_left _ rfl)
  have hclose : (midnight+((passed+1)*e.period pair+e.diff)=o.toNat ∨
      midnight+((passed+1)*e.period pair+e.diff)-e.period pair ≤ now) ↔
      midnight+e.diff+passed*e.period pair ≤ now := by
    rw [add_mul,one_mul]
    constructor
    · intro hcase
      cases hcase with
      | inl hsame => linarith
      | inr hle => linarith
    · intro hle
      exact Or.inr (by linarith)
  constructor
  · intro hrenewed
    refine ⟨hhour.mp hrenewed.hour,?_⟩
    intro hne
    have hfewest := hrenewed.fewest o rfl hne
    rw [htime] at hfewest
    obtain ⟨hdvd,hcase⟩ := (fewest_iff hpos hback).mp hfewest
    exact ⟨hwhole.mp hdvd,hclose.mp hcase⟩
  · rintro ⟨hdays,hnonzero'⟩
    refine ⟨?_,hhour.mpr hdays,?_⟩
    · have hlater : now < midnight+(passed+1)*e.period pair :=
        lt_of_midnight (Int.dvd_add hday hdays) (by linarith)
      rw [htime]
      linarith
    · intro o' ho' hne
      cases ho'
      obtain ⟨hdvd,hle⟩ := hnonzero' hne
      rw [htime]
      exact (fewest_iff hpos hback).mpr ⟨hwhole.mpr hdvd,hclose.mpr hle⟩

/-- The reset time of a map at the start is right where its old time and its period are in line. -/
theorem renewed_iff {old : Option UInt32}
    (h : s.resetTimes pair=(old.map fun o => (o.toNat : ℤ)/DAY*DAY+e.diff).getD 0) :
    Renewed e now pair old (s.firstTime e now pair) ↔ e.Lines now pair old := by
  cases old with
  | none => exact renewed_new h
  | some o =>
    change s.resetTimes pair=(o.toNat : ℤ)/DAY*DAY+e.diff at h
    unfold Env.Lines
    dsimp only
    by_cases hzero : (o.toNat : ℤ)/DAY*DAY+e.diff=0
    · rw [if_pos hzero]
      rw [hzero] at h
      exact renewed_zero hzero h
    · rw [if_neg hzero]
      by_cases hpast : (o.toNat : ℤ)/DAY*DAY+e.diff < now
      · rw [if_pos hpast]
        exact renewed_over hzero h hpast rfl rfl
      · rw [if_neg hpast]
        exact renewed_kept hzero h hpast

/-- The last stored time of a map is kept while the others are loaded. -/
theorem foldl_setResetTime (hpair : pair∈e.maps) (rows : List (Pair×UInt32))
    (hnodup : (rows.map Prod.fst).Nodup) (s : InstanceSaveManager) :
    (rows.foldl (fun s row =>
        if row.1∈e.maps then s.SetResetTimeFor row.1 ((row.2.toNat : ℤ)/DAY*DAY+e.diff) else s)
        s).resetTimes pair=
      (((rows.find? fun row => row.1=pair).map Prod.snd).map
        fun o => (o.toNat : ℤ)/DAY*DAY+e.diff).getD (s.resetTimes pair) := by
  induction rows generalizing s with
  | nil => rfl
  | cons row rows ih =>
    rw [List.map_cons] at hnodup
    obtain ⟨hnew,hrest⟩ := List.nodup_cons.mp hnodup
    rw [List.foldl_cons,ih hrest]
    by_cases hrow : row.1=pair
    · have hnone : (rows.find? fun other => other.1=pair)=none := by
        rw [List.find?_eq_none]
        intro other hother hsame
        have heq : other.1=row.1 := (of_decide_eq_true hsame).trans hrow.symm
        exact hnew (heq ▸ List.mem_map_of_mem hother)
      have hfirst : ((row::rows).find? fun other => other.1=pair)=some row :=
        List.find?_cons_of_pos (decide_eq_true hrow)
      rw [hnone,hfirst,hrow,if_pos hpair]
      exact Function.update_self _ _ _
    · have hlater : ((row::rows).find? fun other => other.1=pair)=
          rows.find? fun other => other.1=pair := List.find?_cons_of_neg (by simpa using hrow)
      rw [hlater]
      congr 1
      split_ifs with hmap
      · exact Function.update_of_ne (Ne.symm hrow) _ _
      · rfl

theorem loadStored_resetTimes {T : Tables} (hpair : pair∈e.maps) (h : s.resetTimes pair=0) :
    (s.loadStored e T.database).resetTimes pair=
      ((T.old pair).map fun o => (o.toNat : ℤ)/DAY*DAY+e.diff).getD 0 := by
  have hrows := foldl_setResetTime hpair T.resetTimes T.keys s
  rw [h] at hrows
  exact hrows

theorem resetTimes_foldl (rows : List InstanceRow) (t : ℤ) (type : UInt8)
    (s : InstanceSaveManager) :
    (rows.foldl (fun s row =>
      s.ScheduleReset t (InstResetEvent.new type pair row.id)) s).resetTimes=s.resetTimes := by
  induction rows generalizing s with
  | nil => rfl
  | cons row rows ih =>
    rw [List.foldl_cons,ih]
    rfl

theorem resetTimes_scheduleMap (hreset : e.resetTime pair≠0) :
    (s.scheduleMap e d now pair).resetTimes=
      Function.update s.resetTimes pair (s.firstTime e now pair) := by
  unfold scheduleMap
  rw [if_neg hreset]
  dsimp only
  rw [resetTimes_foldl]
  rfl

theorem resetTimes_other {other : Pair} (hne : pair≠other) :
    (s.scheduleMap e d now other).resetTimes pair=s.resetTimes pair := by
  by_cases hreset : e.resetTime other=0
  · unfold scheduleMap
    rw [if_pos hreset]
  · rw [resetTimes_scheduleMap hreset]
    exact Function.update_of_ne hne _ _

theorem resetTimes_maps {maps : List Pair} (hnodup : maps.Nodup) (hpair : pair∈maps)
    (hreset : e.resetTime pair≠0) :
    (maps.foldl (fun s pair => s.scheduleMap e d now pair) s).resetTimes pair=
      s.firstTime e now pair := by
  have hkept : ∀ (maps : List Pair) (s : InstanceSaveManager),pair∉maps →
      (maps.foldl (fun s pair => s.scheduleMap e d now pair) s).resetTimes pair=
        s.resetTimes pair := by
    intro maps
    induction maps with
    | nil =>
      intro s _
      rfl
    | cons other maps ih =>
      intro s hnot
      rw [List.foldl_cons,ih _ (fun h => hnot (List.mem_cons_of_mem other h))]
      exact resetTimes_other fun h => hnot (h ▸ List.mem_cons_self)
  induction maps generalizing s with
  | nil => exact absurd hpair List.not_mem_nil
  | cons other maps ih =>
    obtain ⟨hnew,hrest⟩ := List.nodup_cons.mp hnodup
    rw [List.foldl_cons]
    by_cases hsame : pair=other
    · subst hsame
      rw [hkept maps _ hnew,resetTimes_scheduleMap hreset]
      exact Function.update_self _ _ _
    · have hmem : pair∈maps := (List.mem_cons.mp hpair).resolve_left hsame
      rw [ih hrest hmem]
      exact firstTime_congr (resetTimes_other hsame)

end Maps

/-! ## The events of the instances -/

section Events

variable {e : Env} {d : Database} {now : ℤ} {pair : Pair} {s : InstanceSaveManager} {id : UInt32}

theorem filter_scheduleReset {t : ℤ} {event : InstResetEvent} (h : event.type≠0) :
    ((s.ScheduleReset t event).queue.filter (individual id)).Perm
      (s.queue.filter (individual id)) := by
  have hnot : ¬individual id (t,event)=true := by
    unfold individual
    simp only [h,false_and,decide_false,Bool.false_eq_true,not_false_eq_true]
  have hperm := (insert_perm Prod.fst (t,event) s.queue).filter (individual id)
  rw [List.filter_cons_of_neg hnot] at hperm
  exact hperm

theorem firstType_ne_zero (t : ℤ) : firstType now t≠0 := by
  unfold firstType
  split_ifs <;> decide

theorem filter_scheduleMap :
    ((s.scheduleMap e d now pair).queue.filter (individual id)).Perm
      (s.queue.filter (individual id)) := by
  unfold scheduleMap
  by_cases hreset : e.resetTime pair=0
  · rw [if_pos hreset]
  rw [if_neg hreset]
  dsimp only
  generalize s.firstTime e now pair=t
  have hrows : ∀ (rows : List InstanceRow) (s : InstanceSaveManager),
      ((rows.foldl (fun s row => s.ScheduleReset (t-ResetTimeDelay (firstType now t))
        (InstResetEvent.new (firstType now t) pair row.id)) s).queue.filter
          (individual id)).Perm (s.queue.filter (individual id)) := by
    intro rows
    induction rows with
    | nil =>
      intro s
      exact List.Perm.refl _
    | cons row rows ih =>
      intro s
      rw [List.foldl_cons]
      exact (ih _).trans (filter_scheduleReset (firstType_ne_zero t))
  exact (hrows _ _).trans (filter_scheduleReset (s := s.SetResetTimeFor pair t)
    (firstType_ne_zero t))

theorem filter_scheduleMaps (maps : List Pair) :
    ((maps.foldl (fun s pair => s.scheduleMap e d now pair) s).queue.filter (individual id)).Perm
      (s.queue.filter (individual id)) := by
  induction maps generalizing s with
  | nil => exact List.Perm.refl _
  | cons pair maps ih =>
    rw [List.foldl_cons]
    exact ih.trans filter_scheduleMap

theorem individual_perm (id : UInt32) :
    ((InstanceSaveManager.LoadResetTimes e d now).queue.filter (individual id)).Perm
      (((scheduled d now).filter fun row => row.id.toUInt16.toUInt32=id).map
        (instanceEvent d)) := by
  have hnil : Ordered Prod.fst ([] : List (ℤ×InstResetEvent)) := List.Pairwise.nil
  obtain ⟨q,hq,_,hperm⟩ := @scheduleInstances_eq d now ⟨fun _ => 0,[],[],[],[]⟩ d.instances hnil
  have hstored := @loadStored_eq e d ⟨fun _ => 0,q,[],[],[]⟩ ⟨fun _ => 0,[],[],[],[]⟩ rfl
  unfold InstanceSaveManager.LoadResetTimes
  dsimp only
  rw [hq,hstored]
  refine (filter_scheduleMaps e.maps).trans ?_
  have hfilter := hperm.filter (individual id)
  rw [List.nil_append,List.filter_map] at hfilter
  have hpred : (individual id ∘ instanceEvent d)=
      fun row => decide (row.id.toUInt16.toUInt32=id) := by
    funext row
    unfold individual instanceEvent InstResetEvent.new
    simp only [Function.comp_apply,true_and]
  rw [hpred] at hfilter
  exact hfilter

end Events

/-! ## All reset times -/

section Restore

variable {e : Env} {T : Tables} {now : ℤ} {row : InstanceRow}

theorem mem_timed (hrow : row∈T.instances) (hnonzero : row.resetTime≠0) : row∈T.timed :=
  List.mem_filter.mpr ⟨hrow,decide_eq_true hnonzero⟩

/-- What is found first is the latest respawn of its instance. -/
theorem latest_of_head {t id : UInt32} (h : T.maxRespawns.head?=some (t,id)) :
    latestRespawn T.respawns id=some t.toNat :=
  ((T.answer t id).mp (List.mem_of_mem_head? h)).2

theorem onTime_iff : T.database.resetTime row=T.expected row ↔ T.OnTime row := by
  have hword : row.resetTime.toNat < 2^32 := row.resetTime.toNat_lt
  unfold Tables.expected Tables.OnTime Database.resetTime Tables.database
  dsimp only
  cases hhead : T.maxRespawns.head? with
  | none =>
    cases latestRespawn T.respawns row.id with
    | none => simp
    | some t =>
      simp only [Option.map_none,reduceCtorEq,false_and,false_or,Option.some.injEq,forall_eq']
      norm_cast
  | some fields =>
    have hlatest := latest_of_head (t := fields.1) hhead
    dsimp only
    by_cases hid : fields.2=row.id
    · rw [hid] at hlatest
      rw [if_pos hid,hlatest]
      have hsum : (fields.1+7200).toNat=(fields.1.toNat+7200)%2^32 := UInt32.toNat_add _ _
      have hiff : (fields.1.toNat+7200)%2^32=fields.1.toNat+7200 ↔
          fields.1.toNat+7200 < 2^32 := Nat.mod_eq_iff_lt (by decide)
      simp only [Option.map_some,hid,Option.some.injEq,true_and,forall_eq',Nat.cast_inj]
      rw [hsum,hiff]
      omega
    · rw [if_neg hid]
      cases latestRespawn T.respawns row.id with
      | none => simp
      | some t =>
        simp only [Option.map_some,Option.some.injEq,hid,false_and,false_or,forall_eq']
        norm_cast

theorem table_iff (hrow : row∈T.instances) (hnonzero : row.resetTime≠0) :
    (∃ row'∈(T.LoadResetTimes e now).2,
      row'.id=row.id ∧ row'.pair=row.pair ∧ row'.resetTime.toNat=T.expected row) ↔
      T.OnTime row := by
  have htime := T.newRow_resetTime hnonzero
  rw [← onTime_iff,T.LoadResetTimes_eq,← htime]
  constructor
  · rintro ⟨row',hrow',hid,_,hreset⟩
    obtain ⟨other,hother,rfl⟩ := List.mem_map.mp hrow'
    rw [T.newRow_id] at hid
    have hsame : other=row := List.inj_on_of_nodup_map T.nodup_ids hother hrow hid
    rw [hsame] at hreset
    exact_mod_cast hreset
  · intro hreset
    exact ⟨T.newRow row,List.mem_map_of_mem hrow,T.newRow_id row,T.newRow_pair row,
      by exact_mod_cast hreset⟩

/-- The individual events of an instance whose reset is still to come. -/
theorem events_iff (htimes : ∀ row∈T.timed,T.database.resetTime row=T.expected row) :
    (∀ row∈T.timed,now < T.expected row →
      ((T.LoadResetTimes e now).1.queue.filter (individual row.id))=
        [((T.expected row : ℤ),InstResetEvent.new 0 row.pair row.id)]) ↔
      ∀ row∈T.timed,now < T.expected row → row.id.toNat < 2^16 := by
  rw [T.LoadResetTimes_eq]
  constructor
  · intro h row hrow hlater
    have hone := h row hrow hlater
    have hmem : ((T.expected row : ℤ),InstResetEvent.new 0 row.pair row.id)∈
        (InstanceSaveManager.LoadResetTimes e T.database now).queue.filter
          (individual row.id) := by
      rw [hone]
      exact List.mem_singleton_self _
    have hevent := of_decide_eq_true (List.mem_filter.mp hmem).2
    have hid : row.id.toUInt16.toUInt32=row.id := hevent.2
    have hword := congrArg UInt32.toNat hid
    rw [UInt16.toNat_toUInt32] at hword
    rw [← hword]
    exact UInt16.toNat_lt _
  · intro h row hrow hlater
    have hscheduled : row∈scheduled T.database now := by
      refine List.mem_filter.mpr ⟨hrow,decide_eq_true ?_⟩
      rw [htimes row hrow]
      exact hlater
    have hnodup : (scheduled T.database now).Nodup :=
      (List.Nodup.of_map InstanceRow.id T.nodup_timed).filter _
    have hone : ((scheduled T.database now).filter
        fun other => other.id.toUInt16.toUInt32=row.id)=[row] := by
      refine List.perm_singleton.mp ((List.perm_ext_iff_of_nodup (hnodup.filter _)
        (List.nodup_singleton row)).mpr ?_)
      intro other
      rw [List.mem_filter,List.mem_singleton,decide_eq_true_iff]
      constructor
      · rintro ⟨hother,hid⟩
        obtain ⟨hmem,hfuture⟩ := List.mem_filter.mp hother
        have hfuture := of_decide_eq_true hfuture
        rw [htimes other hmem] at hfuture
        rw [toUInt32_toUInt16 (h other hmem hfuture)] at hid
        exact List.inj_on_of_nodup_map T.nodup_timed hmem hrow hid
      · intro hsame
        rw [hsame]
        exact ⟨hscheduled,toUInt32_toUInt16 (h row hrow hlater)⟩
    have hperm := @individual_perm e T.database now row.id
    rw [hone,List.map_singleton] at hperm
    rw [List.perm_singleton.mp hperm]
    unfold instanceEvent
    rw [htimes row hrow]

theorem map_iff {pair : Pair} (hpair : pair∈e.resetMaps) :
    Renewed e now pair (T.old pair) ((T.LoadResetTimes e now).1.resetTimes pair) ↔
      e.Lines now pair (T.old pair) := by
  obtain ⟨hmap,hreset⟩ := List.mem_filter.mp hpair
  have hreset := of_decide_eq_true hreset
  have hnil : Ordered Prod.fst ([] : List (ℤ×InstResetEvent)) := List.Pairwise.nil
  obtain ⟨q,hq,_,_⟩ := @scheduleInstances_eq T.database now ⟨fun _ => 0,[],[],[],[]⟩
    T.database.instances hnil
  rw [T.LoadResetTimes_eq]
  unfold InstanceSaveManager.LoadResetTimes
  dsimp only
  rw [hq,resetTimes_maps e.nodup hmap hreset]
  exact renewed_iff (loadStored_resetTimes hmap rfl)

/-- The reset times are right after loading exactly where the tables and the configuration are
regular. -/
theorem restored_iff (e : Env) (T : Tables) (now : ℤ) : Restored e T now ↔ Regular e T now := by
  constructor
  · intro h
    have honTime : ∀ row∈T.instances,row.resetTime≠0 → T.OnTime row :=
      fun row hrow hnonzero => (table_iff hrow hnonzero).mp (h.table row hrow hnonzero)
    refine ⟨honTime,?_,fun pair hpair => (map_iff hpair).mp (h.maps pair hpair)⟩
    have htimes : ∀ row∈T.timed,T.database.resetTime row=T.expected row := by
      intro row hrow
      obtain ⟨hmem,hnonzero⟩ := List.mem_filter.mp hrow
      exact onTime_iff.mpr (honTime row hmem (of_decide_eq_true hnonzero))
    intro row hrow hnonzero hlater
    refine (events_iff (e := e) htimes).mp ?_ row (mem_timed hrow hnonzero) hlater
    intro other hother hfuture
    obtain ⟨hmem,hset⟩ := List.mem_filter.mp hother
    exact h.events other hmem (of_decide_eq_true hset) hfuture
  · intro h
    have htimes : ∀ row∈T.timed,T.database.resetTime row=T.expected row := by
      intro row hrow
      obtain ⟨hmem,hnonzero⟩ := List.mem_filter.mp hrow
      exact onTime_iff.mpr (h.onTime row hmem (of_decide_eq_true hnonzero))
    refine ⟨fun row hrow hnonzero => (table_iff hrow hnonzero).mpr (h.onTime row hrow hnonzero),?_,
      fun pair hpair => (map_iff hpair).mpr (h.lines pair hpair)⟩
    intro row hrow hnonzero hlater
    refine (events_iff (e := e) htimes).mpr ?_ row (mem_timed hrow hnonzero) hlater
    intro other hother hfuture
    obtain ⟨hmem,hset⟩ := List.mem_filter.mp hother
    exact h.short other hmem (of_decide_eq_true hset) hfuture

end Restore

/-! ## Two instances with respawns -/

/-- No map is reset as a whole. -/
def noMaps : Env where
  maps := []
  nodup := List.nodup_nil
  resetTime := fun _ => 0
  scaled := fun t => t
  resetTimeHour := 4
  instanceable := fun _ => true

/-- Two instances, each with one creature that is to respawn. -/
def twoInstances : Tables where
  instances := [⟨1,(36,0),100⟩,⟨2,(36,0),100⟩]
  sorted := by decide
  respawns := [⟨5000,1⟩,⟨6000,2⟩]
  maxRespawns := [(5000,1),(6000,2)]
  answer := by
    intro t id
    have hlatest : latestRespawn [⟨5000,1⟩,⟨6000,2⟩] id=
        if 1=id then some 5000 else if 2=id then some 6000 else none := by
      unfold latestRespawn
      by_cases hone : 1=id
      · subst hone
        rfl
      · by_cases htwo : 2=id
        · subst htwo
          rfl
        · simp [hone,htwo]
    rw [hlatest]
    have h5000 : 5000=t.toNat ↔ t=5000 := ⟨fun h => UInt32.toNat.inj h.symm,fun h => h ▸ rfl⟩
    have h6000 : 6000=t.toNat ↔ t=6000 := ⟨fun h => UInt32.toNat.inj h.symm,fun h => h ▸ rfl⟩
    by_cases hone : 1=id
    · subst hone
      simp [h5000]
    · by_cases htwo : 2=id
      · subst htwo
        simp [h6000]
      · simp [hone,htwo,Ne.symm hone,Ne.symm htwo]
  grouped := by decide
  resetTimes := []
  keys := List.nodup_nil

/-- The second instance keeps its old reset time. -/
theorem not_restored_two : ¬Restored noMaps twoInstances 0 := by
  intro h
  have hrow : (⟨2,(36,0),100⟩ : InstanceRow)∈twoInstances.instances :=
    List.mem_cons_of_mem _ List.mem_cons_self
  have honTime := (table_iff hrow (by decide)).mp (h.table _ hrow (by decide))
  have hcase := honTime 6000 rfl
  revert hcase
  decide

end Projectnelth.InstanceResetSchedule
