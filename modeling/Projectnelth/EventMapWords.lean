import Mathlib
import Projectnelth.EventMapModel

/-!
# The words of the event map

An event word is its id and a tag of at most one group bit and one phase bit. The readers find
exactly these bits, so that they see the group and the phase of every event that was scheduled
with a group and a phase below 16.
-/

namespace Projectnelth.EventMapWords

open EventMapModel

/-! ## Bits of words -/

theorem testBit_one_shiftLeft {k : UInt64} (hk : k.toNat < 64) (i : ℕ) :
    (1<<<k : UInt64).toNat.testBit i=decide (k.toNat=i) := by
  rw [UInt64.toNat_shiftLeft,UInt64.toNat_one,Nat.mod_eq_of_lt hk,Nat.one_shiftLeft,
    Nat.mod_eq_of_lt (Nat.pow_lt_pow_right (by decide) hk),Nat.testBit_two_pow]

theorem and_one_shiftLeft (w : UInt64) {k : UInt64} (hk : k.toNat < 64) :
    (w &&& 1<<<k != 0)=w.toNat.testBit k.toNat := by
  have hpow : (1<<<k : UInt64).toNat=2^k.toNat := by
    rw [UInt64.toNat_shiftLeft,UInt64.toNat_one,Nat.mod_eq_of_lt hk,Nat.one_shiftLeft,
      Nat.mod_eq_of_lt (Nat.pow_lt_pow_right (by decide) hk)]
  have hzero : w &&& 1<<<k=0 ↔ w.toNat.testBit k.toNat=false := by
    rw [← UInt64.toNat_inj,UInt64.toNat_and,hpow,Nat.and_two_pow,UInt64.toNat_zero]
    cases w.toNat.testBit k.toNat <;> simp
  cases hbit : w.toNat.testBit k.toNat with
  | false => rw [hzero.mpr hbit]; rfl
  | true =>
    have hne : w &&& 1<<<k≠0 := fun h => by
      rw [hzero.mp h] at hbit
      cases hbit
    exact bne_iff_ne.mpr hne

theorem toNat_group_add {group : UInt16} (h : group ≤ 16) :
    (group.toUInt64+31).toNat=group.toNat+31 := by
  have hle : group.toNat ≤ 16 := UInt16.le_iff_toNat_le.mp h
  rw [UInt64.toNat_add,UInt16.toNat_toUInt64,show (31 : UInt64).toNat=31 from rfl]
  omega

theorem toNat_phase_add {phase : UInt16} (h : phase ≤ 16) :
    (phase.toUInt64+47).toNat=phase.toNat+47 := by
  have hle : phase.toNat ≤ 16 := UInt16.le_iff_toNat_le.mp h
  rw [UInt64.toNat_add,UInt16.toNat_toUInt64,show (47 : UInt64).toNat=47 from rfl]
  omega

/-! ## The tag -/

/-- The group bit and the phase bit of a word. -/
def tag (group phase : UInt16) : UInt64 := eventWord 0 group phase

/-- Whether bit `i` of a tag is set. -/
def tagBit (group phase : UInt16) (i : ℕ) : Bool :=
  decide (group≠0 ∧ group < 16 ∧ group.toNat+31=i) || decide (phase≠0 ∧ phase < 16 ∧ phase.toNat+47=i)

theorem testBit_eventWord (id : UInt32) (group phase : UInt16) (i : ℕ) :
    (eventWord id group phase).toNat.testBit i=(id.toNat.testBit i || tagBit group phase i) := by
  have hgroup : ∀ w : UInt64,
      (if group≠0 ∧ group < 16 then w ||| groupBit group else w).toNat.testBit i=
        (w.toNat.testBit i || decide (group≠0 ∧ group < 16 ∧ group.toNat+31=i)) := by
    intro w
    by_cases h : group≠0 ∧ group < 16
    · have hle : group ≤ 16 := UInt16.le_of_lt h.2
      have hlt : group.toNat < 16 := UInt16.lt_iff_toNat_lt.mp h.2
      have hadd := toNat_group_add hle
      rw [if_pos h,UInt64.toNat_or,Nat.testBit_or,groupBit,
        testBit_one_shiftLeft (by rw [hadd]; omega),hadd]
      simp only [h.1,h.2,ne_eq,not_false_eq_true,true_and]
    · rw [if_neg h,decide_eq_false (fun hh => h ⟨hh.1,hh.2.1⟩),Bool.or_false]
  have hphase : ∀ w : UInt64,
      (if phase≠0 ∧ phase < 16 then w ||| phaseBit phase else w).toNat.testBit i=
        (w.toNat.testBit i || decide (phase≠0 ∧ phase < 16 ∧ phase.toNat+47=i)) := by
    intro w
    by_cases h : phase≠0 ∧ phase < 16
    · have hle : phase ≤ 16 := UInt16.le_of_lt h.2
      have hlt : phase.toNat < 16 := UInt16.lt_iff_toNat_lt.mp h.2
      have hadd := toNat_phase_add hle
      rw [if_pos h,UInt64.toNat_or,Nat.testBit_or,phaseBit,
        testBit_one_shiftLeft (by rw [hadd]; omega),hadd]
      simp only [h.1,h.2,ne_eq,not_false_eq_true,true_and]
    · rw [if_neg h,decide_eq_false (fun hh => h ⟨hh.1,hh.2.1⟩),Bool.or_false]
  unfold eventWord
  dsimp only
  rw [hphase,hgroup,UInt32.toNat_toUInt64,Bool.or_assoc]
  rfl

/-- The id of a word has no bits above the 32nd. -/
theorem testBit_id {id : UInt32} {i : ℕ} (hi : 32 ≤ i) : id.toNat.testBit i=false :=
  Nat.testBit_lt_two_pow (id.toNat_lt.trans_le (Nat.pow_le_pow_right (by decide) hi))

/-- The readers find the group that a word was built with, unless it is 16. -/
theorem word_inGroup {group : UInt16} (hne : group≠0) (hle : group ≤ 16) (id : UInt32)
    (group' phase : UInt16) :
    (eventWord id group' phase &&& groupBit group != 0)=decide (group=group' ∧ group≠16) := by
  have hadd := toNat_group_add hle
  have hnat : group.toNat ≤ 16 := UInt16.le_iff_toNat_le.mp hle
  have hpos : group.toNat≠0 := fun h => hne (UInt16.toNat_inj.mp h)
  rw [groupBit,and_one_shiftLeft _ (by rw [hadd]; omega),hadd,testBit_eventWord,
    testBit_id (i := group.toNat+31) (by omega),Bool.false_or,tagBit]
  have hphase : ¬(phase≠0 ∧ phase < 16 ∧ phase.toNat+47=group.toNat+31) := by
    rintro ⟨hzero,-,heq⟩
    have hpos : phase.toNat≠0 := fun h => hzero (UInt16.toNat_inj.mp h)
    omega
  rw [decide_eq_false hphase,Bool.or_false]
  refine decide_eq_decide.mpr ⟨?_,?_⟩
  · rintro ⟨-,hlt,heq⟩
    have hsame : group=group' := UInt16.toNat_inj.mp (by omega)
    exact ⟨hsame,fun h16 => absurd (hsame ▸ hlt) (by rw [h16]; decide)⟩
  · rintro ⟨rfl,h16⟩
    exact ⟨hne,UInt16.lt_of_le_of_ne hle h16,rfl⟩

/-! ## Phases -/

theorem testBit_phaseMask (i : ℕ) :
    PHASE_MASK.toNat.testBit i=(decide (48 ≤ i) && decide (i-48 < 16)) := by
  rw [show PHASE_MASK.toNat=(2^16-1)<<<48 from rfl,Nat.testBit_shiftLeft,
    Nat.testBit_two_pow_sub_one]

theorem testBit_shifted (id : UInt32) (group phase : UInt16) (i : ℕ) :
    (eventWord id group phase>>>48).toNat.testBit i=
      decide (phase≠0 ∧ phase < 16 ∧ phase.toNat=i+1) := by
  rw [UInt64.toNat_shiftRight,show (48 : UInt64).toNat%64=48 from rfl,Nat.testBit_shiftRight,
    testBit_eventWord,testBit_id (i := 48+i) (by omega),Bool.false_or,tagBit]
  have hgroup : ¬(group≠0 ∧ group < 16 ∧ group.toNat+31=48+i) := by
    rintro ⟨-,hlt,heq⟩
    have hnat : group.toNat < 16 := UInt16.lt_iff_toNat_lt.mp hlt
    omega
  rw [decide_eq_false hgroup,Bool.false_or]
  refine decide_eq_decide.mpr (and_congr_right fun _ => and_congr_right fun _ => ?_)
  omega

theorem not_excluded_of_unphased {τ : Type} {e : Event τ} {id : UInt32} {group phase : UInt16}
    (hdata : e.data=eventWord id group phase) (h : ¬(phase≠0 ∧ phase < 16)) (mask : UInt16) :
    excluded mask e=false := by
  have hzero : e.data &&& PHASE_MASK=0 := by
    rw [← UInt64.toNat_inj,UInt64.toNat_and,UInt64.toNat_zero]
    refine Nat.eq_of_testBit_eq fun i => ?_
    rw [Nat.testBit_and,testBit_phaseMask,Nat.zero_testBit]
    by_cases hi : 48 ≤ i
    · have hbit := testBit_shifted id group phase (i-48)
      rw [UInt64.toNat_shiftRight,show (48 : UInt64).toNat%64=48 from rfl,Nat.testBit_shiftRight,
        Nat.add_sub_cancel' hi,decide_eq_false fun hh => h ⟨hh.1,hh.2.1⟩] at hbit
      rw [hdata,hbit,Bool.false_and]
    · rw [decide_eq_false hi,Bool.false_and,Bool.and_false]
  unfold excluded
  rw [hzero]
  simp

theorem and_one_shiftLeft_phase (mask : UInt16) {phase : UInt16} (hne : phase≠0)
    (hle : phase ≤ 16) :
    (mask &&& 1<<<(phase-1) != 0)=mask.toNat.testBit (phase.toNat-1) := by
  have hnat : phase.toNat ≤ 16 := UInt16.le_iff_toNat_le.mp hle
  have hpos : phase.toNat≠0 := fun h => hne (UInt16.toNat_inj.mp h)
  have hsub : (phase-1).toNat=phase.toNat-1 := by
    have hone : 1 ≤ phase := UInt16.le_iff_toNat_le.mpr (show 1 ≤ phase.toNat by omega)
    rw [UInt16.toNat_sub_of_le _ _ hone]
    rfl
  have hpow : (1<<<(phase-1) : UInt16).toNat=2^(phase.toNat-1) := by
    have hbits : phase.toNat-1 < 16 := by omega
    rw [UInt16.toNat_shiftLeft,UInt16.toNat_one,hsub,Nat.mod_eq_of_lt hbits,Nat.one_shiftLeft,
      Nat.mod_eq_of_lt (Nat.pow_lt_pow_right (by decide) hbits)]
  have hzero : mask &&& 1<<<(phase-1)=0 ↔ mask.toNat.testBit (phase.toNat-1)=false := by
    rw [← UInt16.toNat_inj,UInt16.toNat_and,hpow,Nat.and_two_pow,UInt16.toNat_zero]
    cases mask.toNat.testBit (phase.toNat-1) <;> simp
  cases hbit : mask.toNat.testBit (phase.toNat-1) with
  | false => rw [hzero.mpr hbit]; rfl
  | true =>
    have hz : mask &&& 1<<<(phase-1)≠0 := fun h => by
      rw [hzero.mp h] at hbit
      cases hbit
    exact bne_iff_ne.mpr hz

/-- `IsInPhase` reads one bit of the phases. -/
theorem isInPhase_eq {τ : Type} (m : EventMap τ) {phase : UInt16} (hne : phase≠0)
    (hle : phase ≤ 16) : isInPhase phase m=m.phase.toNat.testBit (phase.toNat-1) := by
  unfold isInPhase
  rw [decide_eq_true hle,decide_eq_false hne,Bool.true_and,Bool.false_or,
    and_one_shiftLeft_phase _ hne hle]

/-- While a phase is set, a word with a phase bit is excluded unless its phase is among them. -/
theorem excluded_of_phased {τ : Type} {e : Event τ} {id : UInt32} {group phase : UInt16}
    (hdata : e.data=eventWord id group phase) (hne : phase≠0) (hlt : phase < 16) (m : EventMap τ)
    (hmask : m.phase≠0) : excluded m.phase e= !isInPhase phase m := by
  have hnat : phase.toNat < 16 := UInt16.lt_iff_toNat_lt.mp hlt
  have hpos : phase.toNat≠0 := fun h => hne (UInt16.toNat_inj.mp h)
  have hsub : (phase.toUInt64-1).toNat=phase.toNat-1 := by
    rw [UInt64.toNat_sub_of_le _ _ (UInt64.le_iff_toNat_le.mpr
      (by rw [UInt16.toNat_toUInt64]; exact Nat.one_le_iff_ne_zero.mpr hpos)),UInt16.toNat_toUInt64]
    rfl
  have hshift : e.data>>>48=1<<<(phase.toUInt64-1) := by
    rw [← UInt64.toNat_inj]
    refine Nat.eq_of_testBit_eq fun i => ?_
    rw [hdata,testBit_shifted,testBit_one_shiftLeft (by rw [hsub]; omega),hsub]
    refine decide_eq_decide.mpr ⟨fun h => by omega,fun h => ⟨hne,hlt,by omega⟩⟩
  have hand : (e.data &&& PHASE_MASK != 0)=true := by
    refine bne_iff_ne.mpr fun hzero => ?_
    have hbit := congrArg (fun w : UInt64 => w.toNat.testBit (phase.toNat+47)) hzero
    rw [UInt64.toNat_and,Nat.testBit_and,testBit_phaseMask,hdata,testBit_eventWord,tagBit,
      UInt64.toNat_zero,Nat.zero_testBit,decide_eq_true (p := phase≠0 ∧ phase < 16 ∧ _) ⟨hne,hlt,rfl⟩,
      decide_eq_true (p := 48 ≤ phase.toNat+47) (by omega),
      decide_eq_true (p := phase.toNat+47-48 < 16) (by omega)] at hbit
    simp at hbit
  have hread : ((e.data>>>48) &&& m.phase.toUInt64 == 0)= !isInPhase phase m := by
    rw [isInPhase_eq m hne (UInt16.le_of_lt hlt),hshift,UInt64.and_comm,← Bool.not_not (_ == _)]
    refine congrArg Bool.not ?_
    rw [← UInt16.toNat_toUInt64,← hsub]
    exact and_one_shiftLeft _ (by rw [hsub]; omega)
  unfold excluded
  rw [hand,hread,bne_iff_ne.mpr hmask]
  rfl

/-! ## The next event -/

/-- The id and the tag of a word add up. -/
theorem toNat_eventWord (group phase : UInt16) :
    ∃ high < 2^31,∀ id : UInt32,(eventWord id group phase).toNat=2^32*high+id.toNat := by
  have htag : ∀ i,(tag group phase).toNat.testBit i=tagBit group phase i := fun i => by
    rw [tag,testBit_eventWord,UInt32.toNat_zero,Nat.zero_testBit,Bool.false_or]
  have hbits : ∀ i,tagBit group phase i=true → 32 ≤ i ∧ i < 63 := by
    intro i hi
    rw [tagBit,Bool.or_eq_true,decide_eq_true_eq,decide_eq_true_eq] at hi
    rcases hi with ⟨hne,hlt,rfl⟩ | ⟨hne,hlt,rfl⟩
    · have hnat : group.toNat < 16 := UInt16.lt_iff_toNat_lt.mp hlt
      have hpos : group.toNat≠0 := fun h => hne (UInt16.toNat_inj.mp h)
      omega
    · have hnat : phase.toNat < 16 := UInt16.lt_iff_toNat_lt.mp hlt
      omega
  have hhigh : (tag group phase).toNat < 2^63 := Nat.lt_pow_two_of_testBit _ fun i hi => by
    rw [htag,Bool.eq_false_iff]
    intro hbit
    have hrange := hbits i hbit
    omega
  refine ⟨(tag group phase).toNat/2^32,by omega,fun id => ?_⟩
  rw [Nat.two_pow_add_eq_or_of_lt id.toNat_lt]
  refine Nat.eq_of_testBit_eq fun i => ?_
  rw [testBit_eventWord,Nat.testBit_or,Nat.testBit_two_pow_mul,Nat.testBit_div_two_pow,htag,
    Bool.or_comm]
  by_cases hi : 32 ≤ i
  · rw [decide_eq_true (p := i ≥ 32) hi,Bool.true_and,Nat.sub_add_cancel hi]
  · have hnone : tagBit group phase i=false := Bool.eq_false_iff.mpr fun hbit => hi (hbits i hbit).1
    rw [hnone,decide_eq_false (p := i ≥ 32) hi,Bool.false_and]

/-- The word after a word has the same tag and the next id, unless the id is the last one. -/
theorem eventWord_add_one_iff (id : UInt32) (group phase : UInt16) :
    eventWord id group phase+1=eventWord (id+1) group phase ↔ id≠0xFFFFFFFF := by
  obtain ⟨high,hhigh,hword⟩ := toNat_eventWord group phase
  have hid := id.toNat_lt
  rw [← UInt64.toNat_inj,UInt64.toNat_add,hword,hword,UInt64.toNat_one,UInt32.toNat_add,
    UInt32.toNat_one,ne_eq,← UInt32.toNat_inj,show (0xFFFFFFFF : UInt32).toNat=2^32-1 from rfl]
  omega

theorem eventWord_ne_next (id : UInt32) (group phase : UInt16) :
    eventWord id group phase≠eventWord (id+1) group phase := by
  obtain ⟨high,hhigh,hword⟩ := toNat_eventWord group phase
  have hid := id.toNat_lt
  rw [ne_eq,← UInt64.toNat_inj,hword,hword,UInt32.toNat_add,UInt32.toNat_one]
  omega

end Projectnelth.EventMapWords
