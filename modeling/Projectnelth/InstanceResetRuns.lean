import Mathlib
import Projectnelth.InstanceResetSchedule

/-!
# Resets that are on time

Over all updates the queue has the events of the instances that are not reset yet, and of each map
the one that is next in its schedule. A round takes the first event away: that of an instance, or
that of a map, which makes room for the one that follows in the schedule.
-/

namespace Projectnelth.InstanceResetSchedule

open StableMultimap WhileLoop InstanceSaveManager

section Filter

variable {α : Type*} {p : α → Prop} [DecidablePred p] {a : α}

theorem filter_cons_pos (l : List α) (h : p a) :
    ((a::l).filter fun x => p x)=a::l.filter fun x => p x :=
  List.filter_cons_of_pos (decide_eq_true h)

theorem filter_cons_neg (l : List α) (h : ¬p a) :
    ((a::l).filter fun x => p x)=l.filter fun x => p x :=
  List.filter_cons_of_neg (fun hp => h (of_decide_eq_true hp))

end Filter

section Schedule

variable {e : Env} {d : Database} {now last : ℤ} {pair : Pair} {n : ℕ} {x : UInt8×ℤ}

theorem schedule_succ (e : Env) (d : Database) (now : ℤ) (pair : Pair) (n : ℕ) :
    schedule e d now pair (n+1)=follow e pair (schedule e d now pair n) :=
  Function.iterate_succ_apply' _ _ _

/-- A warning or a reset has one of four types. -/
def Staged (x : UInt8×ℤ) : Prop := x.1=1 ∨ x.1=2 ∨ x.1=3 ∨ x.1=4

theorem staged_follow (h : Staged x) : Staged (follow e pair x) := by
  unfold follow
  split_ifs with hfour
  · exact Or.inl rfl
  · rcases h with h | h | h | h
    · exact Or.inr (Or.inl (by rw [h]; rfl))
    · exact Or.inr (Or.inr (Or.inl (by rw [h]; rfl)))
    · exact Or.inr (Or.inr (Or.inr (by rw [h]; rfl)))
    · exact absurd h hfour

theorem staged_schedule (e : Env) (d : Database) (now : ℤ) (pair : Pair) (n : ℕ) :
    Staged (schedule e d now pair n) := by
  induction n with
  | zero =>
    show Staged (firstType now (start e d now pair),_)
    unfold Staged firstType
    split_ifs
    · exact Or.inl rfl
    · exact Or.inr (Or.inl rfl)
    · exact Or.inr (Or.inr (Or.inl rfl))
    · exact Or.inr (Or.inr (Or.inr rfl))
  | succ n ih =>
    rw [schedule_succ]
    exact staged_follow ih

theorem Staged.ne_zero (h : Staged x) : x.1≠0 := by
  rcases h with h | h | h | h <;> rw [h] <;> decide

theorem day_le_period (e : Env) (pair : Pair) : DAY ≤ e.period pair := le_max_left _ _

theorem diff_nonneg (e : Env) : 0 ≤ e.diff := by
  unfold Env.diff HOUR
  omega

/-- A next reset time is later by more than a minute. -/
theorem lt_next (e : Env) (pair : Pair) (R : ℤ) : R+MINUTE < e.next pair R := by
  have hperiod := day_le_period e pair
  have hdiff := diff_nonneg e
  unfold Env.next
  unfold DAY at hperiod ⊢
  omega

theorem nonneg_loadStored (s : InstanceSaveManager) (h : ∀ pair,0 ≤ s.resetTimes pair) :
    ∀ pair,0 ≤ (s.loadStored e d).resetTimes pair := by
  unfold loadStored
  generalize d.resetTimes=rows
  induction rows generalizing s with
  | nil => exact h
  | cons row rows ih =>
    refine ih _ fun pair => ?_
    beta_reduce
    split_ifs
    · by_cases hpair : pair=row.1
      · have hdiff := diff_nonneg e
        have hday : 0 ≤ (row.2.toNat : ℤ)/DAY*DAY := by
          unfold DAY
          omega
        show 0 ≤ Function.update s.resetTimes row.1 _ pair
        rw [hpair,Function.update_self]
        omega
      · show 0 ≤ Function.update s.resetTimes row.1 _ pair
        rw [Function.update_of_ne hpair]
        exact h pair
    · exact h pair

/-- The first reset time is not negative. -/
theorem start_nonneg (e : Env) (d : Database) (hnow : 0 ≤ now) (pair : Pair) :
    0 ≤ start e d now pair := by
  have hstored := nonneg_loadStored (e := e) (d := d) ⟨fun _ => 0,[],[],[],[]⟩
    (fun _ => le_rfl) pair
  have hperiod := day_le_period e pair
  have hdiff := diff_nonneg e
  unfold start firstTime
  generalize ((⟨fun _ => 0,[],[],[],[]⟩ : InstanceSaveManager).loadStored e d).resetTimes pair=t
    at hstored ⊢
  generalize e.period pair=period at hperiod ⊢
  unfold DAY at hperiod ⊢
  dsimp only
  by_cases hzero : t=0
  · rw [if_pos hzero,if_neg (by omega)]
    omega
  rw [if_neg hzero]
  split_ifs with hlt
  · have hquotient : 0 ≤ (now/86400*86400-t/86400*86400)/period :=
      Int.ediv_nonneg (by omega) (by omega)
    have hproduct : 0 ≤ ((now/86400*86400-t/86400*86400)/period+1)*period :=
      mul_nonneg (by omega) (by omega)
    omega
  · exact hstored

theorem nonneg_schedule (e : Env) (d : Database) (hnow : 0 ≤ now) (pair : Pair) (n : ℕ) :
    0 ≤ (schedule e d now pair n).2 := by
  induction n with
  | zero => exact start_nonneg e d hnow pair
  | succ n ih =>
    rw [schedule_succ]
    unfold follow
    split_ifs
    · have hlt := lt_next e pair (schedule e d now pair n).2
      unfold MINUTE at hlt
      dsimp only
      omega
    · exact ih

/-- A warning is due before the next one or the reset. -/
theorem dueTime_lt_follow (h : Staged x) (hne : x.1≠4) :
    dueTime x < dueTime (follow e pair x) := by
  unfold follow
  rw [if_neg hne]
  unfold dueTime
  dsimp only
  rcases h with h | h | h | h
  · rw [h]
    have hone : ResetTimeDelay 1=3600 := rfl
    have htwo : ResetTimeDelay (1+1)=900 := rfl
    omega
  · rw [h]
    have htwo : ResetTimeDelay 2=900 := rfl
    have hthree : ResetTimeDelay (2+1)=300 := rfl
    omega
  · rw [h]
    have hthree : ResetTimeDelay 3=300 := rfl
    have hfour : ResetTimeDelay (3+1)=60 := rfl
    omega
  · exact absurd h hne

/-- A reset time that is followed by one of 32 bits is followed by that one. -/
theorem next_mod (hR : 0 ≤ x.2) (hword : e.next pair x.2 < 2^32) :
    e.next pair x.2 % 2^32=e.next pair x.2 ∧
      (e.next pair x.2-3600) % 2^32=e.next pair x.2-3600 := by
  have hperiod := day_le_period e pair
  have hdiff := diff_nonneg e
  have hlate : 86400 ≤ e.next pair x.2 := by
    unfold Env.next MINUTE
    unfold DAY at hperiod ⊢
    omega
  exact ⟨Int.emod_eq_of_lt (by omega) hword,Int.emod_eq_of_lt (by omega) (by omega)⟩

/-- The order of a warning or a reset among those of its map. -/
def rank (x : UInt8×ℤ) : ℤ := 4*x.2+x.1.toNat

theorem rank_lt_follow (h : Staged x) : rank x < rank (follow e pair x) := by
  have hlt := lt_next e pair x.2
  unfold MINUTE at hlt
  unfold follow rank
  split_ifs with hfour
  · rw [hfour]
    have hone : (1 : UInt8).toNat=1 := rfl
    have hstage : (4 : UInt8).toNat=4 := rfl
    dsimp only
    omega
  · have hsucc : (x.1+1).toNat=x.1.toNat+1 := by
      rcases h with h | h | h | h
      · rw [h]
        rfl
      · rw [h]
        rfl
      · rw [h]
        rfl
      · exact absurd h hfour
    dsimp only
    omega

theorem rank_le (h : Staged x) {t : ℤ} (hdue : dueTime x < t) : rank x ≤ 4*(t+3600) := by
  unfold dueTime at hdue
  unfold rank
  rcases h with h | h | h | h
  · rw [h] at hdue ⊢
    have hdelay : ResetTimeDelay 1=3600 := rfl
    have hstage : (1 : UInt8).toNat=1 := rfl
    omega
  · rw [h] at hdue ⊢
    have hdelay : ResetTimeDelay 2=900 := rfl
    have hstage : (2 : UInt8).toNat=2 := rfl
    omega
  · rw [h] at hdue ⊢
    have hdelay : ResetTimeDelay 3=300 := rfl
    have hstage : (3 : UInt8).toNat=3 := rfl
    omega
  · rw [h] at hdue ⊢
    have hdelay : ResetTimeDelay 4=60 := rfl
    have hstage : (4 : UInt8).toNat=4 := rfl
    omega

theorem snd_schedule_mono (e : Env) (d : Database) (now : ℤ) (pair : Pair) {i j : ℕ}
    (hij : i ≤ j) : (schedule e d now pair i).2 ≤ (schedule e d now pair j).2 := by
  induction j,hij using Nat.le_induction with
  | base => exact le_rfl
  | succ j _ ih =>
    refine ih.trans ?_
    rw [schedule_succ]
    unfold follow
    split_ifs
    · have hlt := lt_next e pair (schedule e d now pair j).2
      unfold MINUTE at hlt
      dsimp only
      omega
    · exact le_rfl

/-- A reset is for an earlier time than all that follows it. -/
theorem snd_schedule_lt (e : Env) (d : Database) (now : ℤ) (pair : Pair) {i j : ℕ} (hij : i < j)
    (hfour : (schedule e d now pair i).1=4) :
    (schedule e d now pair i).2 < (schedule e d now pair j).2 := by
  refine lt_of_lt_of_le ?_ (snd_schedule_mono e d now pair hij)
  have hlt := lt_next e pair (schedule e d now pair i).2
  unfold MINUTE at hlt
  rw [schedule_succ]
  unfold follow
  rw [if_pos hfour]
  dsimp only
  omega

end Schedule

section Round

variable {e : Env} {d : Database} {now last t : ℤ} {pair : Pair} {x : UInt8×ℤ}
  {s : InstanceSaveManager} {rest : List (ℤ×InstResetEvent)} {row : InstanceRow}

/-- An id of sixteen bits is the one of its event. -/
theorem toUInt32_toUInt16 {id : UInt32} (h : id.toNat < 2^16) : id.toUInt16.toUInt32=id := by
  apply UInt32.toNat.inj
  rw [UInt16.toNat_toUInt32,UInt32.toNat_toUInt16]
  exact Nat.mod_eq_of_lt h

theorem updateRound_instance (hqueue : s.queue=instanceEvent d row::rest)
    (hdue : d.resetTime row < t) (hid : row.id.toNat < 2^16)
    (hmap : e.instanceable row.pair.1=true) :
    s.updateRound e t=
      ({ s with queue := rest,instances := s.instances++[(row.pair.1,row.id)] },true) := by
  have htype : (InstResetEvent.new 0 row.pair row.id).type=0 := rfl
  have hinstance : (InstResetEvent.new 0 row.pair row.id).instanceId.toUInt32=row.id :=
    toUInt32_toUInt16 hid
  have hmapid : (InstResetEvent.new 0 row.pair row.id).mapid=row.pair.1 := rfl
  unfold updateRound
  rw [hqueue]
  unfold instanceEvent
  dsimp only
  rw [if_neg (not_le_of_gt hdue),if_pos htype,hinstance,hmapid]
  unfold ResetInstance erase
  rw [if_pos hmap]
  dsimp only
  rw [hqueue,List.tail_cons]

theorem ResetOrWarnAll_warn (s : InstanceSaveManager) (R : ℤ) :
    s.ResetOrWarnAll e pair true R=s := by
  unfold ResetOrWarnAll
  by_cases hinst : (!e.instanceable pair.1)=true
  · rw [if_pos hinst]
  · rw [if_neg hinst,if_pos rfl]

/-- A reset sets the next reset time and schedules its first warning. -/
theorem ResetOrWarnAll_reset (s : InstanceSaveManager) (hpair : pair∈e.resetMaps)
    (hinst : e.instanceable pair.1=true) (hR : 0 ≤ x.2) (hword : e.next pair x.2 < 2^32) :
    s.ResetOrWarnAll e pair false x.2=
      { s with
        resetTimes := Function.update s.resetTimes pair (e.next pair x.2)
        queue := insert Prod.fst (event pair (1,e.next pair x.2)) s.queue
        resets := s.resets++[(pair,x.2)] } := by
  obtain ⟨hmaps,hreset⟩ := List.mem_filter.mp hpair
  obtain ⟨htime,hwarning⟩ := next_mod hR hword
  have hcheck : ¬(pair∉e.maps ∨ e.resetTime pair=0) :=
    not_or.mpr ⟨not_not.mpr hmaps,of_decide_eq_true hreset⟩
  unfold ResetOrWarnAll
  rw [if_neg (by rw [hinst]; exact Bool.false_ne_true),if_neg Bool.false_ne_true,if_neg hcheck]
  dsimp only
  rw [htime,hwarning]
  rfl

theorem insert_tail {β κ : Type*} [LinearOrder κ] {key : β → κ} {y z : β} {ys : List β}
    (h : key y ≤ key z) : (insert key z (y::ys)).tail=insert key z ys := by
  show (if key y ≤ key z then y::insert key z ys else z::y::ys).tail=insert key z ys
  rw [if_pos h,List.tail_cons]

theorem updateRound_map (hqueue : s.queue=event pair x::rest) (hstaged : Staged x)
    (hdue : dueTime x < t) (hpair : pair∈e.resetMaps) (htime : s.resetTimes pair=x.2)
    (hR : 0 ≤ x.2)
    (horderly : x.1=4 → e.instanceable pair.1=true ∧ e.next pair x.2 < 2^32 ∧
      dueTime x ≤ dueTime (follow e pair x)) :
    s.updateRound e t=
      ({ s with
        resetTimes := Function.update s.resetTimes pair (follow e pair x).2
        queue := insert Prod.fst (event pair (follow e pair x)) rest
        handled := s.handled++[(pair,x)]
        resets := s.resets++if x.1=4 then [(pair,x.2)] else [] },true) := by
  obtain ⟨hmaps,hreset⟩ := List.mem_filter.mp hpair
  have hpairOf : (event pair x).2.pair=pair := rfl
  have htype : (event pair x).2.type=x.1 := rfl
  have hfst : (event pair x).1=dueTime x := rfl
  unfold updateRound
  rw [hqueue]
  rcases hev : event pair x with ⟨key,ev⟩
  rw [hev] at hpairOf htype hfst
  dsimp only at hpairOf htype hfst ⊢
  rw [if_neg (by omega),if_neg (by rw [htype]; exact hstaged.ne_zero),hpairOf,htype,htime]
  by_cases hfour : x.1=4
  · obtain ⟨hinst,hword,hle⟩ := horderly hfour
    have hwarn : decide (x.1≠4)=false := by rw [hfour]; rfl
    have hfollow : follow e pair x=(1,e.next pair x.2) := if_pos hfour
    have hbehind : key ≤ (event pair (1,e.next pair x.2)).1 := by
      rw [hfollow] at hle
      rw [hfst]
      exact hle
    rw [if_neg (not_not.mpr hfour),hwarn,ResetOrWarnAll_reset _ hpair hinst hR hword,
      hfollow,if_pos hfour]
    unfold erase
    dsimp only
    rw [insert_tail hbehind]
  · have hle : dueTime x < dueTime (follow e pair x) := dueTime_lt_follow hstaged hfour
    have hwarn : decide (x.1≠4)=true := decide_eq_true hfour
    have hfollow : follow e pair x=(x.1+1,x.2) := if_neg hfour
    have hbehind : key ≤ (event pair (x.1+1,x.2)).1 := by
      rw [hfollow] at hle
      rw [hfst]
      exact hle.le
    have hsame : Function.update s.resetTimes pair x.2=s.resetTimes := by
      rw [← htime,Function.update_eq_self]
    have hnext : ({ ev with type := x.1+1 } : InstResetEvent)=(event pair (x.1+1,x.2)).2 := by
      have hev' : ev=InstResetEvent.new x.1 pair 0 := (congrArg Prod.snd hev).symm
      rw [hev']
      rfl
    rw [if_pos hfour,hwarn,ResetOrWarnAll_warn,hfollow,if_neg hfour,hsame,List.append_nil]
    unfold ScheduleReset erase
    dsimp only
    rw [hnext]
    show ((⟨s.resetTimes,(insert Prod.fst (event pair (x.1+1,x.2)) _).tail,s.instances,
      s.handled++[(pair,x.1,x.2)],s.resets⟩ : InstanceSaveManager),true)=_
    rw [insert_tail hbehind]

end Round

section Runs

variable {e : Env} {d : Database} {now last t : ℤ} {s r : InstanceSaveManager}
  {m : Pair → ℕ} {pend done : List InstanceRow}

/-- The queue has the events of the instances that are pending and the next one of each map, and
what was done is what was due. -/
structure Sound (e : Env) (d : Database) (now last : ℤ) (m : Pair → ℕ) (pend done : List InstanceRow)
    (s : InstanceSaveManager) : Prop where
  rows : (pend++done).Perm (scheduled d now)
  queue : s.queue.Perm (pend.map (instanceEvent d)++
    e.resetMaps.map fun pair => event pair (schedule e d now pair (m pair)))
  ordered : Ordered Prod.fst s.queue
  resetTimes : ∀ pair∈e.resetMaps,s.resetTimes pair=(schedule e d now pair (m pair)).2
  instances : s.instances.Perm (done.map fun row => (row.pair.1,row.id))
  /-- The warnings and resets that are done. -/
  handled : ∀ pair∈e.resetMaps,(s.handled.filter fun x => x.1=pair)=
    (List.range (m pair)).map fun i => (pair,schedule e d now pair i)
  resets : ∀ pair∈e.resetMaps,(s.resets.filter fun x => x.1=pair)=
    ((List.range (m pair)).filter fun i => (schedule e d now pair i).1=4).map fun i =>
      (pair,(schedule e d now pair i).2)
  dueRows : ∀ row∈done,d.resetTime row < last
  dueMaps : ∀ pair∈e.resetMaps,∀ i < m pair,dueTime (schedule e d now pair i) < last

/-- How many rounds an event is good for. -/
def weight (t : ℤ) (x : ℤ×InstResetEvent) : ℕ :=
  if x.2.type=0 then 1
  else (4*(t+3600)+1-rank (x.2.type,x.1+ResetTimeDelay x.2.type)).toNat

/-- How many rounds the queue is good for. -/
def load (t : ℤ) (s : InstanceSaveManager) : ℕ := (s.queue.map (weight t)).sum

theorem weight_event (t : ℤ) (pair : Pair) {x : UInt8×ℤ} (h : Staged x) :
    weight t (event pair x)=(4*(t+3600)+1-rank x).toNat := by
  have htype : (event pair x).2.type=x.1 := rfl
  have hx : (x.1,(event pair x).1+ResetTimeDelay x.1)=x := by
    refine Prod.ext rfl ?_
    show x.2-ResetTimeDelay x.1+ResetTimeDelay x.1=x.2
    omega
  unfold weight
  rw [htype,if_neg h.ne_zero,hx]

/-- What follows is good for fewer rounds. -/
theorem weight_follow_lt (pair : Pair) {x : UInt8×ℤ} (h : Staged x) (hdue : dueTime x < t) :
    weight t (event pair (follow e pair x)) < weight t (event pair x) := by
  have hrank : rank x < rank (follow e pair x) := rank_lt_follow h
  have hle := rank_le h hdue
  rw [weight_event t pair h,weight_event t pair (staged_follow h)]
  omega

theorem map_update_perm {α : Type*} {l : List Pair} (hnodup : l.Nodup) {pair : Pair}
    (hpair : pair∈l) (f : Pair → ℕ → α) (m : Pair → ℕ) (k : ℕ) :
    (l.map fun p => f p (Function.update m pair k p)).Perm
      (f pair k::(l.erase pair).map fun p => f p (m p)) := by
  refine ((List.perm_cons_erase hpair).map _).trans ?_
  rw [List.map_cons,Function.update_self]
  refine List.Perm.cons _ (List.Perm.of_eq (List.map_congr_left fun p hp => ?_))
  rw [Function.update_of_ne (hnodup.mem_erase_iff.mp hp).1]

theorem Sound.instance_round (h : Sound e d now last m pend done s)
    (ho : Orderly e d now last) (ht : t ≤ last) {row : InstanceRow} (hrow : row∈pend)
    {rest : List (ℤ×InstResetEvent)} (hqueue : s.queue=instanceEvent d row::rest)
    (hdue : d.resetTime row < t) :
    ∃ u,s.updateRound e t=(u,true) ∧ load t u < load t s ∧
      Sound e d now last m (pend.erase row) (row::done) u := by
  have hscheduled : row∈scheduled d now :=
    h.rows.mem_iff.mp (List.mem_append_left done hrow)
  have hlast : d.resetTime row < last := by omega
  obtain ⟨hid,hmap⟩ := ho.instances row hscheduled hlast
  have hperm : pend.Perm (row::pend.erase row) := List.perm_cons_erase hrow
  refine ⟨_,updateRound_instance hqueue hdue hid hmap,?_,?_⟩
  · unfold load
    rw [hqueue,List.map_cons,List.sum_cons]
    have hone : weight t (instanceEvent d row)=1 := if_pos rfl
    dsimp only
    omega
  · refine ⟨?_,?_,?_,h.resetTimes,?_,h.handled,h.resets,?_,h.dueMaps⟩
    · refine List.Perm.trans ?_ h.rows
      exact List.perm_middle.trans (hperm.symm.append_right done)
    · have hq := h.queue
      rw [hqueue] at hq
      exact List.Perm.cons_inv (hq.trans ((hperm.map (instanceEvent d)).append_right _))
    · have hord := h.ordered
      rw [hqueue] at hord
      exact (List.pairwise_cons.mp hord).2
    · exact (List.perm_append_singleton _ _).trans (h.instances.cons _)
    intro other hother
    rcases List.mem_cons.mp hother with rfl | hother
    · exact hlast
    · exact h.dueRows other hother

theorem Sound.map_round (h : Sound e d now last m pend done s) (hnow : 0 ≤ now)
    (ho : Orderly e d now last) (ht : t ≤ last) {pair : Pair} (hpair : pair∈e.resetMaps)
    {rest : List (ℤ×InstResetEvent)}
    (hqueue : s.queue=event pair (schedule e d now pair (m pair))::rest)
    (hdue : dueTime (schedule e d now pair (m pair)) < t) :
    ∃ u,s.updateRound e t=(u,true) ∧ load t u < load t s ∧
      Sound e d now last (Function.update m pair (m pair+1)) pend done u := by
  have hstaged := staged_schedule e d now pair (m pair)
  have hlast : dueTime (schedule e d now pair (m pair)) < last := by omega
  have hfollow := schedule_succ e d now pair (m pair)
  have hround := updateRound_map hqueue hstaged hdue hpair (h.resetTimes pair hpair)
    (nonneg_schedule e d hnow pair (m pair))
    (fun hfour => by
      rw [← hfollow]
      exact ho.maps pair hpair (m pair) hfour hlast)
  rw [← hfollow] at hround
  have hord := h.ordered
  rw [hqueue] at hord
  have hordrest : Ordered Prod.fst rest := (List.pairwise_cons.mp hord).2
  refine ⟨_,hround,?_,?_⟩
  · have hweight := weight_follow_lt (e := e) pair hstaged hdue
    rw [← hfollow] at hweight
    unfold load
    rw [hqueue,List.map_cons,List.sum_cons]
    dsimp only
    rw [((insert_perm Prod.fst _ rest).map (weight t)).sum_eq,List.map_cons,List.sum_cons]
    omega
  · refine ⟨h.rows,?_,ordered_insert hordrest,?_,h.instances,?_,?_,h.dueRows,?_⟩
    · have hnodup : e.resetMaps.Nodup := e.nodup.filter _
      have hold := map_update_perm hnodup hpair
        (fun p n => event p (schedule e d now p n)) m (m pair)
      have hnew := map_update_perm hnodup hpair
        (fun p n => event p (schedule e d now p n)) m (m pair+1)
      rw [Function.update_eq_self] at hold
      have hq := h.queue
      rw [hqueue] at hq
      have hrest := List.Perm.cons_inv (hq.trans ((hold.append_left _).trans List.perm_middle))
      refine (insert_perm Prod.fst _ rest).trans ?_
      exact (hrest.cons _).trans (List.perm_middle.symm.trans (hnew.symm.append_left _))
    · intro other hother
      dsimp only
      by_cases heq : other=pair
      · rw [heq,Function.update_self,Function.update_self]
      · rw [Function.update_of_ne heq,Function.update_of_ne heq]
        exact h.resetTimes other hother
    · intro other hother
      dsimp only
      rw [List.filter_append,h.handled other hother]
      by_cases heq : other=pair
      · rw [heq,Function.update_self,List.range_succ,List.map_append,List.map_singleton,
          filter_cons_pos (p := fun x : Pair×UInt8×ℤ => x.1=pair) [] rfl,List.filter_nil]
      · rw [Function.update_of_ne heq,
          filter_cons_neg (p := fun x : Pair×UInt8×ℤ => x.1=other) [] (Ne.symm heq),
          List.filter_nil,List.append_nil]
    · intro other hother
      dsimp only
      rw [List.filter_append,h.resets other hother]
      by_cases heq : other=pair
      · rw [heq,Function.update_self,List.range_succ,List.filter_append,List.map_append]
        by_cases hfour : (schedule e d now pair (m pair)).1=4
        · rw [if_pos hfour,filter_cons_pos (p := fun x : Pair×ℤ => x.1=pair) [] rfl,
            filter_cons_pos (p := fun i => (schedule e d now pair i).1=4) [] hfour,
            List.filter_nil,List.filter_nil,List.map_singleton]
        · rw [if_neg hfour,filter_cons_neg (p := fun i => (schedule e d now pair i).1=4) [] hfour,
            List.filter_nil,List.filter_nil,List.map_nil]
      · rw [Function.update_of_ne heq]
        have hnone : ((if (schedule e d now pair (m pair)).1=4
            then [(pair,(schedule e d now pair (m pair)).2)] else []).filter
              fun x => x.1=other)=[] := by
          split_ifs
          · exact filter_cons_neg (p := fun x : Pair×ℤ => x.1=other) [] (Ne.symm heq)
          · rfl
        rw [hnone,List.append_nil]
    · intro other hother i hi
      by_cases heq : other=pair
      · rw [heq,Function.update_self] at hi
        rw [heq]
        rcases Nat.lt_succ_iff_lt_or_eq.mp hi with hi | hi
        · exact h.dueMaps pair hpair i hi
        · rw [hi]
          exact hlast
      · rw [Function.update_of_ne heq] at hi
        exact h.dueMaps other hother i hi

theorem Sound.round (h : Sound e d now last m pend done s) (hnow : 0 ≤ now)
    (ho : Orderly e d now last) (ht : t ≤ last) {x : ℤ×InstResetEvent}
    {rest : List (ℤ×InstResetEvent)} (hqueue : s.queue=x::rest) (hdue : x.1 < t) :
    ∃ u,s.updateRound e t=(u,true) ∧ load t u < load t s ∧
      ∃ m pend done,Sound e d now last m pend done u := by
  have hx : x∈s.queue := by
    rw [hqueue]
    exact List.mem_cons_self
  rcases List.mem_append.mp (h.queue.mem_iff.mp hx) with hx | hx
  · obtain ⟨row,hrow,rfl⟩ := List.mem_map.mp hx
    obtain ⟨u,hu,hload,hsound⟩ := h.instance_round ho ht hrow hqueue hdue
    exact ⟨u,hu,hload,_,_,_,hsound⟩
  · obtain ⟨pair,hpair,rfl⟩ := List.mem_map.mp hx
    obtain ⟨u,hu,hload,hsound⟩ := h.map_round hnow ho ht hpair hqueue hdue
    exact ⟨u,hu,hload,_,_,_,hsound⟩

/-- A round in which nothing is due. -/
theorem updateRound_stop {x : ℤ×InstResetEvent} {rest : List (ℤ×InstResetEvent)}
    (hqueue : s.queue=x::rest) (hlate : t ≤ x.1) : s.updateRound e t=(s,false) := by
  obtain ⟨key,ev⟩ := x
  unfold updateRound
  rw [hqueue]
  dsimp only
  rw [if_pos hlate]

/-- The queue of a round of the loop. -/
theorem exists_cons_of_guard (hguard : (!s.queue.isEmpty)=true) : ∃ x rest,s.queue=x::rest := by
  cases hqueue : s.queue with
  | nil =>
    rw [hqueue] at hguard
    cases hguard
  | cons x rest => exact ⟨x,rest,rfl⟩

/-- An update ends and leaves nothing that is due. -/
theorem Sound.update (h : Sound e d now last m pend done s) (hnow : 0 ≤ now)
    (ho : Orderly e d now last) (ht : t ≤ last) :
    (∃ u,s.Update e t u) ∧ ∀ u,s.Update e t u →
      (∃ m pend done,Sound e d now last m pend done u) ∧ ∀ x∈u.queue,t ≤ x.1 := by
  have hround : ∀ s u,(∃ m pend done,Sound e d now last m pend done s) →
      (!s.queue.isEmpty)=true → s.updateRound e t=(u,true) →
        (∃ m pend done,Sound e d now last m pend done u) ∧ load t u < load t s := by
    rintro s u ⟨m,pend,done,hs⟩ hguard hbody
    obtain ⟨x,rest,hqueue⟩ := exists_cons_of_guard hguard
    by_cases hdue : x.1 < t
    · obtain ⟨v,hv,hload,hsound⟩ := hs.round hnow ho ht hqueue hdue
      rw [hv] at hbody
      cases hbody
      exact ⟨hsound,hload⟩
    · rw [updateRound_stop hqueue (le_of_not_gt hdue)] at hbody
      cases hbody
  have hstop : ∀ s u,(∃ m pend done,Sound e d now last m pend done s) →
      (!s.queue.isEmpty)=true → s.updateRound e t=(u,false) →
        (∃ m pend done,Sound e d now last m pend done u) ∧ ∀ x∈u.queue,t ≤ x.1 := by
    rintro s u ⟨m,pend,done,hs⟩ hguard hbody
    obtain ⟨x,rest,hqueue⟩ := exists_cons_of_guard hguard
    by_cases hdue : x.1 < t
    · obtain ⟨v,hv,hload,hsound⟩ := hs.round hnow ho ht hqueue hdue
      rw [hv] at hbody
      cases hbody
    · rw [updateRound_stop hqueue (le_of_not_gt hdue)] at hbody
      cases hbody
      refine ⟨⟨m,pend,done,hs⟩,fun y hy => ?_⟩
      have hord := hs.ordered
      rw [hqueue] at hord hy
      exact (le_of_not_gt hdue).trans (hord.head_le y hy)
  refine ⟨⟨_,runs_fuelled (I := fun s => ∃ m pend done,Sound e d now last m pend done s)
    (m := load t) hround ⟨m,pend,done,h⟩ (Nat.lt_succ_self _)⟩,fun u hu => ?_⟩
  obtain ⟨hsound,hend⟩ := Runs.invariant
    (I := fun s => ∃ m pend done,Sound e d now last m pend done s)
    (B := fun u => ∀ x∈u.queue,t ≤ x.1) (fun s u hs hg hb => (hround s u hs hg hb).1) hstop hu
    ⟨m,pend,done,h⟩
  refine ⟨hsound,?_⟩
  rcases hend with hempty | hend
  · intro x hx
    cases hqueue : u.queue with
    | nil =>
      rw [hqueue] at hx
      cases hx
    | cons y rest =>
      rw [hqueue] at hempty
      cases hempty
  · exact hend

/-- Updates end, and the last one leaves nothing that is due. -/
theorem Sound.updates (hnow : 0 ≤ now) (ho : Orderly e d now last) {nows : List ℤ}
    (hle : ∀ t∈nows,t ≤ last) (h : Sound e d now last m pend done s) :
    (∃ u,Updates e nows s u) ∧ ∀ u,Updates e nows s u →
      (∃ m pend done,Sound e d now last m pend done u) ∧
        ∀ t∈nows.getLast?,∀ x∈u.queue,t ≤ x.1 := by
  induction nows generalizing s m pend done with
  | nil =>
    refine ⟨⟨s,rfl⟩,fun u hu => ?_⟩
    rw [show u=s from hu]
    exact ⟨⟨m,pend,done,h⟩,fun t ht => by cases ht⟩
  | cons t nows ih =>
    obtain ⟨⟨v,hv⟩,hall⟩ := h.update hnow ho (hle t List.mem_cons_self)
    have hle' : ∀ t∈nows,t ≤ last := fun t' ht' => hle t' (List.mem_cons_of_mem t ht')
    constructor
    · obtain ⟨⟨m',pend',done',hsound⟩,_⟩ := hall v hv
      obtain ⟨⟨u,hu⟩,_⟩ := ih hle' hsound
      exact ⟨u,v,hv,hu⟩
    · rintro u ⟨w,hw,hu⟩
      obtain ⟨⟨m',pend',done',hsound⟩,hlate⟩ := hall w hw
      obtain ⟨hfinal,hlast⟩ := (ih hle' hsound).2 u hu
      refine ⟨hfinal,fun t' ht' => ?_⟩
      cases nows with
      | nil =>
        rw [show u=w from hu]
        cases ht'
        exact hlate
      | cons t₁ nows => exact hlast t' ht'

end Runs

section Load

variable {e : Env} {d : Database} {now last : ℤ} {s s' : InstanceSaveManager} {pair : Pair}

theorem scheduleInstances_eq (rows : List InstanceRow) (hord : Ordered Prod.fst s.queue) :
    ∃ q,s.scheduleInstances d now rows={ s with queue := q } ∧ Ordered Prod.fst q ∧
      q.Perm (s.queue++(rows.filter fun row => now < d.resetTime row).map (instanceEvent d)) := by
  unfold scheduleInstances
  induction rows generalizing s with
  | nil => exact ⟨s.queue,rfl,hord,List.Perm.of_eq (List.append_nil _).symm⟩
  | cons row rows ih =>
    rw [List.foldl_cons]
    by_cases hrow : now < d.resetTime row
    · rw [if_pos hrow,filter_cons_pos (p := fun row => now < d.resetTime row) rows hrow,
        List.map_cons]
      obtain ⟨q,hq,hord',hperm⟩ := ih (s := s.ScheduleReset (d.resetTime row)
        (InstResetEvent.new 0 row.pair row.id)) (ordered_insert hord)
      refine ⟨q,hq,hord',hperm.trans ?_⟩
      exact ((insert_perm Prod.fst _ s.queue).append_right _).trans List.perm_middle.symm
    · rw [if_neg hrow,filter_cons_neg (p := fun row => now < d.resetTime row) rows hrow]
      exact ih hord

/-- Loading the stored times reads and changes the reset times only. -/
theorem loadStored_eq (h : s.resetTimes=s'.resetTimes) :
    s.loadStored e d={ s with resetTimes := (s'.loadStored e d).resetTimes } := by
  unfold loadStored
  generalize d.resetTimes=rows
  induction rows generalizing s s' with
  | nil =>
    dsimp only [List.foldl_nil]
    rw [← h]
  | cons row rows ih =>
    rw [List.foldl_cons,List.foldl_cons]
    by_cases hrow : row.1∈e.maps
    · rw [if_pos hrow,if_pos hrow]
      refine ih ?_
      unfold SetResetTimeFor
      rw [h]
    · rw [if_neg hrow,if_neg hrow]
      exact ih h

theorem firstTime_congr (h : s.resetTimes pair=s'.resetTimes pair) :
    s.firstTime e now pair=s'.firstTime e now pair := by
  unfold firstTime
  rw [h]

theorem scheduleMap_eq (hreset : e.resetTime pair≠0) (hapart : ∀ row∈d.instances,row.pair≠pair)
    (hstart : s.firstTime e now pair=start e d now pair) :
    s.scheduleMap e d now pair=
      { s with
        resetTimes := Function.update s.resetTimes pair (start e d now pair)
        queue := insert Prod.fst (event pair (schedule e d now pair 0)) s.queue } := by
  have hnone : (d.instances.filter fun row => row.pair=pair)=[] := by
    refine List.filter_eq_nil_iff.mpr fun row hrow h => ?_
    exact hapart row hrow (of_decide_eq_true h)
  unfold scheduleMap
  rw [if_neg hreset,hnone,hstart,List.foldl_nil]
  rfl

theorem scheduleMaps_eq {maps : List Pair} (hnodup : maps.Nodup)
    (hapart : ∀ pair∈maps,e.resetTime pair≠0 → ∀ row∈d.instances,row.pair≠pair)
    (hord : Ordered Prod.fst s.queue)
    (hstart : ∀ pair∈maps,s.firstTime e now pair=start e d now pair) :
    ∃ q f,maps.foldl (fun s pair => s.scheduleMap e d now pair) s=
        { s with resetTimes := f,queue := q } ∧
      Ordered Prod.fst q ∧
      q.Perm (s.queue++(maps.filter fun pair => e.resetTime pair≠0).map fun pair =>
        event pair (schedule e d now pair 0)) ∧
      (∀ pair∈maps,e.resetTime pair≠0 → f pair=start e d now pair) ∧
      ∀ pair∉maps,f pair=s.resetTimes pair := by
  induction maps generalizing s with
  | nil =>
    exact ⟨s.queue,s.resetTimes,rfl,hord,List.Perm.of_eq (List.append_nil _).symm,
      fun _ h => absurd h List.not_mem_nil,fun _ _ => rfl⟩
  | cons pair maps ih =>
    obtain ⟨hnot,hnodup⟩ := List.nodup_cons.mp hnodup
    have hapart' : ∀ other∈maps,e.resetTime other≠0 → ∀ row∈d.instances,row.pair≠other :=
      fun other hother => hapart other (List.mem_cons_of_mem pair hother)
    have hne : ∀ other∈maps,other≠pair := fun other hother heq => hnot (by rw [← heq]; exact hother)
    rw [List.foldl_cons]
    by_cases hreset : e.resetTime pair≠0
    · rw [scheduleMap_eq hreset (hapart pair List.mem_cons_self hreset)
        (hstart pair List.mem_cons_self),
        filter_cons_pos (p := fun pair => e.resetTime pair≠0) maps hreset,List.map_cons]
      obtain ⟨q,f,hq,hord',hperm,htimes,hrest⟩ := ih
        (s := { s with
          resetTimes := Function.update s.resetTimes pair (start e d now pair)
          queue := insert Prod.fst (event pair (schedule e d now pair 0)) s.queue })
        hnodup hapart' (ordered_insert hord) (fun other hother => by
          rw [← hstart other (List.mem_cons_of_mem pair hother)]
          exact firstTime_congr (Function.update_of_ne (hne other hother) _ _))
      refine ⟨q,f,hq,hord',hperm.trans ?_,?_,?_⟩
      · exact ((insert_perm Prod.fst _ s.queue).append_right _).trans List.perm_middle.symm
      · intro other hother hother'
        rcases List.mem_cons.mp hother with rfl | hother
        · rw [hrest other hnot]
          exact Function.update_self _ _ _
        · exact htimes other hother hother'
      · intro other hother
        obtain ⟨hne',hother⟩ := not_or.mp (fun h => hother (List.mem_cons.mpr h))
        rw [hrest other hother]
        exact Function.update_of_ne hne' _ _
    · have hzero : e.resetTime pair=0 := not_not.mp hreset
      have hsame : s.scheduleMap e d now pair=s := if_pos hzero
      rw [hsame,filter_cons_neg (p := fun pair => e.resetTime pair≠0) maps hreset]
      obtain ⟨q,f,hq,hord',hperm,htimes,hrest⟩ := ih (s := s) hnodup hapart' hord
        (fun other hother => hstart other (List.mem_cons_of_mem pair hother))
      refine ⟨q,f,hq,hord',hperm,?_,?_⟩
      · intro other hother hother'
        rcases List.mem_cons.mp hother with rfl | hother
        · exact absurd hzero hother'
        · exact htimes other hother hother'
      · intro other hother
        exact hrest other (fun h => hother (List.mem_cons_of_mem pair h))

/-- After loading nothing is done yet. -/
theorem sound_load (e : Env) (d : Database) (now last : ℤ)
    (hapart : ∀ row∈d.instances,row.pair∉e.resetMaps) :
    Sound e d now last (fun _ => 0) (scheduled d now) [] (LoadResetTimes e d now) := by
  have hnil : Ordered Prod.fst ([] : List (ℤ×InstResetEvent)) := List.Pairwise.nil
  obtain ⟨q,hq,hord,hperm⟩ := @scheduleInstances_eq d now ⟨fun _ => 0,[],[],[],[]⟩ d.instances hnil
  have hstored := @loadStored_eq e d ⟨fun _ => 0,q,[],[],[]⟩ ⟨fun _ => 0,[],[],[],[]⟩ rfl
  obtain ⟨q',f,hq',hord',hperm',htimes,_⟩ := @scheduleMaps_eq e d now
    ((⟨fun _ => 0,q,[],[],[]⟩ : InstanceSaveManager).loadStored e d) _ e.nodup
    (fun pair hpair hreset row hrow heq => hapart row hrow (by
      rw [heq]
      exact List.mem_filter.mpr ⟨hpair,decide_eq_true hreset⟩))
    (by rw [hstored]; exact hord) (fun pair _ => by rw [hstored]; rfl)
  have hload : LoadResetTimes e d now=⟨f,q',[],[],[]⟩ := by
    unfold LoadResetTimes
    dsimp only
    rw [hq,hq',hstored]
  rw [hload]
  refine ⟨List.Perm.of_eq (List.append_nil _),?_,hord',?_,List.Perm.refl _,fun _ _ => rfl,
    fun _ _ => rfl,fun _ h => absurd h List.not_mem_nil,fun _ _ i hi => absurd hi (Nat.not_lt_zero i)⟩
  · rw [hstored] at hperm'
    exact hperm'.trans (hperm.append_right _)
  · intro pair hpair
    obtain ⟨hmaps,hreset⟩ := List.mem_filter.mp hpair
    exact htimes pair hmaps (of_decide_eq_true hreset)

end Load

section Kept

variable {e : Env} {d : Database} {now last : ℤ} {s : InstanceSaveManager}
  {m : Pair → ℕ} {pend done : List InstanceRow}

theorem Sound.pending (h : Sound e d now last m pend done s) {pair : Pair}
    (hpair : pair∈e.resetMaps) :
    (s.queue.filter fun x => x.2.type≠0 ∧ x.2.pair=pair)=
      [event pair (schedule e d now pair (m pair))] := by
  refine List.perm_singleton.mp ((h.queue.filter _).trans (List.Perm.of_eq ?_))
  have hrows : ((pend.map (instanceEvent d)).filter fun x => x.2.type≠0 ∧ x.2.pair=pair)=[] := by
    refine List.filter_eq_nil_iff.mpr fun x hx h => ?_
    obtain ⟨row,_,rfl⟩ := List.mem_map.mp hx
    exact (of_decide_eq_true h).1 rfl
  have hmaps : ((fun x : ℤ×InstResetEvent => decide (x.2.type≠0 ∧ x.2.pair=pair)) ∘
      fun p => event p (schedule e d now p (m p)))=fun p => decide (p=pair) := by
    funext p
    exact decide_eq_decide.mpr ⟨fun h => h.2,fun h =>
      ⟨(staged_schedule e d now p (m p)).ne_zero,h⟩⟩
  have hone : (e.resetMaps.filter fun p => p=pair)=[pair] := by
    refine List.perm_singleton.mp ((List.perm_ext_iff_of_nodup
      ((e.nodup.filter _).filter _) (List.nodup_singleton pair)).mpr fun p => ?_)
    rw [List.mem_filter,decide_eq_true_iff,List.mem_singleton]
    exact ⟨fun h => h.2,fun h => ⟨by rw [h]; exact hpair,h⟩⟩
  rw [List.filter_append,hrows,List.nil_append,List.filter_map,hmaps,hone,List.map_singleton]

theorem Sound.later (h : Sound e d now last m pend done s) {pair : Pair}
    (hpair : pair∈e.resetMaps) :
    (s.resets.filter fun x => x.1=pair).Pairwise fun x y => x.2 < y.2 := by
  rw [h.resets pair hpair,List.pairwise_map]
  refine List.Pairwise.imp_of_mem ?_ (List.pairwise_lt_range.filter _)
  intro i j hi _ hij
  exact snd_schedule_lt e d now pair hij (of_decide_eq_true (List.mem_filter.mp hi).2)

theorem Sound.kept (h : Sound e d now last m pend done s)
    (hlate : ∀ row∈pend,last ≤ d.resetTime row) : Kept e d now last s := by
  constructor
  · refine h.instances.trans (List.Perm.map _ ?_)
    have hpend : (pend.filter fun row => d.resetTime row < last)=[] :=
      List.filter_eq_nil_iff.mpr fun row hrow h =>
        absurd (of_decide_eq_true h) (not_lt_of_ge (hlate row hrow))
    have hdone : (done.filter fun row => d.resetTime row < last)=done :=
      List.filter_eq_self.mpr fun row hrow => decide_eq_true (h.dueRows row hrow)
    have hrows := h.rows.filter fun row => d.resetTime row < last
    rw [List.filter_append,hpend,hdone,List.nil_append] at hrows
    exact hrows
  · intro pair hpair
    exact ⟨m pair,h.pending hpair,h.resetTimes pair hpair,h.handled pair hpair,
      h.resets pair hpair,h.later hpair,h.dueMaps pair hpair⟩

/-- The last time is none before another one. -/
theorem le_getLastD {t : ℤ} {ts : List ℤ} (h : (t::ts).Pairwise fun t u => t ≤ u) :
    ∀ u∈t::ts,u ≤ ts.getLastD t := by
  induction ts generalizing t with
  | nil =>
    intro u hu
    exact (List.mem_singleton.mp hu).le
  | cons t' ts ih =>
    obtain ⟨hfirst,hrest⟩ := List.pairwise_cons.mp h
    intro u hu
    rw [List.getLastD_cons]
    rcases List.mem_cons.mp hu with rfl | hu
    · exact (hfirst t' List.mem_cons_self).trans (ih hrest t' List.mem_cons_self)
    · exact ih hrest u hu

/-- When the resets that are due are orderly, all updates end, all that was due is done and
nothing else, and the last update leaves nothing that is due. -/
theorem kept_updates (e : Env) (d : Database) (now : ℤ) (nows : List ℤ) (hnow : 0 ≤ now)
    (hsorted : (now::nows).Pairwise fun t u => t ≤ u) (ho : Orderly e d now (nows.getLastD now)) :
    (∃ s,Updates e nows (LoadResetTimes e d now) s) ∧
      ∀ s,Updates e nows (LoadResetTimes e d now) s →
        Kept e d now (nows.getLastD now) s ∧ ∀ t∈nows.getLast?,∀ x∈s.queue,t ≤ x.1 := by
  have hload := sound_load e d now (nows.getLastD now) ho.apart
  have hle : ∀ t∈nows,t ≤ nows.getLastD now :=
    fun t ht => le_getLastD hsorted t (List.mem_cons_of_mem now ht)
  obtain ⟨hends,hall⟩ := hload.updates hnow ho hle
  refine ⟨hends,fun s hs => ?_⟩
  obtain ⟨⟨m,pend,done,hsound⟩,hlate⟩ := hall s hs
  refine ⟨?_,hlate⟩
  cases hnows : nows with
  | nil =>
    rw [hnows] at hs hload
    rw [show s=LoadResetTimes e d now from hs]
    exact hload.kept fun row hrow => (of_decide_eq_true (List.mem_filter.mp hrow).2 :
      now < d.resetTime row).le
  | cons t nows =>
    rw [hnows] at hlate hsound
    refine hsound.kept fun row hrow => ?_
    have hlast : (t::nows).getLast?=some ((t::nows).getLastD now) := by
      rw [List.getLastD_cons,List.getLastD_eq_getLast?,List.getLast?_cons]
    exact hlate _ (Option.mem_def.mpr hlast) (instanceEvent d row)
      (hsound.queue.mem_iff.mpr (List.mem_append_left _ (List.mem_map_of_mem hrow)))

end Kept

theorem nodup_weekly : ([(1,0)] : List Pair).Nodup := List.nodup_singleton _

/-- One map that is reset every week. -/
def weekly : Env where
  maps := [(1,0)]
  nodup := nodup_weekly
  resetTime := fun _ => 604800
  scaled := id
  resetTimeHour := 4
  instanceable := fun _ => true

theorem nodup_row (id : UInt32) :
    (([⟨id,(2,0),10⟩] : List InstanceRow).map InstanceRow.id).Nodup := List.nodup_singleton _

/-- One instance with a reset time of its own, on another map. -/
def oneRow (id : UInt32) : Database where
  instances := [⟨id,(2,0),10⟩]
  nodup := nodup_row id
  respawn := none
  resetTimes := []

/-- A week, a reset of the map, and an instance of it that is reset before. -/
theorem kept_weekly :
    (∃ s,Updates weekly [20,700000] (LoadResetTimes weekly (oneRow 7) 5) s) ∧
      ∀ s,Updates weekly [20,700000] (LoadResetTimes weekly (oneRow 7) 5) s →
        Kept weekly (oneRow 7) 5 700000 s ∧ ∀ t∈[20,700000].getLast?,∀ x∈s.queue,t ≤ x.1 := by
  refine kept_updates weekly (oneRow 7) 5 [20,700000] (by decide) (by decide) ⟨?_,?_,?_⟩
  · intro row hrow _
    have hone : row=⟨7,(2,0),10⟩ := List.mem_singleton.mp (List.mem_filter.mp hrow).1
    rw [hone]
    decide
  · intro row hrow hreset
    have hone : row=⟨7,(2,0),10⟩ := List.mem_singleton.mp hrow
    rw [hone] at hreset
    exact absurd hreset (by decide)
  · intro pair hpair n hfour hdue
    have hpair' : pair=(1,0) := List.mem_singleton.mp (List.mem_filter.mp hpair).1
    rw [hpair'] at hfour hdue ⊢
    -- the second week is over after the updates
    have hweek : (schedule weekly (oneRow 7) 5 (1,0) 4).2=1224000 := by decide
    have hlt : n < 4 := by
      by_contra hge
      have hmono := snd_schedule_mono weekly (oneRow 7) 5 (1,0) (le_of_not_gt hge)
      have hdelay : ResetTimeDelay 4=60 := rfl
      have hlast : ([20,700000] : List ℤ).getLastD 5=700000 := rfl
      unfold dueTime at hdue
      rw [hfour,hdelay,hlast] at hdue
      omega
    interval_cases n <;> revert hfour <;> decide

/-- An instance whose id has more than sixteen bits is not reset, but another one is. -/
theorem not_kept_wide :
    ¬∀ (e : Env) (d : Database) (now : ℤ) (nows : List ℤ),e.resetTimeHour < 24 → 0 ≤ now →
      (now::nows).Pairwise (fun t u => t ≤ u) →
        (∃ s,Updates e nows (LoadResetTimes e d now) s) ∧
          ∀ s,Updates e nows (LoadResetTimes e d now) s → Kept e d now (nows.getLastD now) s := by
  intro hall
  have hkept := (hall weekly (oneRow 65537) 5 [20] (by decide) (by decide) (by decide)).2
  have hrun : Updates weekly [20] (LoadResetTimes weekly (oneRow 65537) 5)
      ((LoadResetTimes weekly (oneRow 65537) 5).updateRound weekly 20).1 :=
    ⟨_,Runs.round (by decide) (Prod.ext rfl (by decide)) (Runs.stop (by decide)
      (@updateRound_stop _ _ _ (event (1,0) (1,619200)) [] (by decide) (by decide))),rfl⟩
  have hperm := (hkept _ hrun).instances
  revert hperm
  decide

end Projectnelth.InstanceResetSchedule
