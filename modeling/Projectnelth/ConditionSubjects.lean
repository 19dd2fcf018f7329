import Mathlib
import Projectnelth.ConditionLoading

/-!
# The objects a condition can be met by

Every kind of condition is about objects of some kinds only. The evaluator gives no positive
answer about others, and the mask of a checked condition has the bits of exactly these.
-/

namespace Projectnelth.ConditionModel

/-- Whether an object of a kind can be what a condition asks for. -/
def Condition.subjects (c : Condition) (t : TypeID) : Bool :=
  match c.conditionType with
  | .none => true
  | .zoneId => true
  | .activeEvent => true
  | .instanceInfo => true
  | .mapId => true
  | .areaId => true
  | .nearCreature => true
  | .nearGameobject => true
  | .distanceTo => true
  | .worldState => true
  | .phaseMask => true
  | .spawnMask => true
  | .aura => t.isType typemaskUnit
  | .unitClass => t.isType typemaskUnit
  | .race => t.isType typemaskUnit
  | .level => t.isType typemaskUnit
  | .hasUnitState => t.isType typemaskUnit
  | .relationTo => t.isType typemaskUnit
  | .reactionTo => t.isType typemaskUnit
  | .alive => t.isType typemaskUnit
  | .hpVal => t.isType typemaskUnit
  | .hpPct => t.isType typemaskUnit
  | .unitState => t.isType typemaskUnit
  | .inWater => t.isType typemaskUnit
  | .item => t=.player
  | .itemEquipped => t=.player
  | .reputationRank => t=.player
  | .achievement => t=.player
  | .team => t=.player
  | .gender => t=.player
  | .skill => t=.player
  | .questRewarded => t=.player
  | .questTaken => t=.player
  | .questComplete => t=.player
  | .questNone => t=.player
  | .spell => t=.player
  | .drunkenState => t=.player
  | .hasMount => t=.player
  | .title => t=.player
  | .objectEntryGuid => t.val=c.conditionValue1
  | .typeMask => t.isType c.conditionValue1
  | .unused24 => false
  | .other _ => false

/-- Whether the mask knows the kind of condition. -/
def Condition.handled (c : Condition) : Bool :=
  match c.conditionType with
  | .unused24 => false
  | .other _ => false
  | _ => true

section Evaluation

variable {Obj : Type*} [DecidableEq Obj] {w : World Obj} {info : ConditionSourceInfo Obj}
  {c : Condition} {object : Obj}

omit [DecidableEq Obj] in
theorem isType_of_toUnit {f : Obj → Bool} (h : (toUnit w object).any f=true) :
    (w.typeId object).isType typemaskUnit=true := by
  unfold toUnit at h
  split_ifs at h with ht
  · exact ht
  · exact Bool.noConfusion h

omit [DecidableEq Obj] in
theorem player_of_toPlayer {f : Obj → Bool} (h : (toPlayer w object).any f=true) :
    decide (w.typeId object=.player)=true := by
  unfold toPlayer at h
  split_ifs at h with ht
  · exact decide_eq_true ht
  · exact Bool.noConfusion h

omit [DecidableEq Obj] in
theorem isType_of_compare {f : Obj → Option Bool}
    (h : (match toUnit w object with | some unit => f unit | none => some false)=some true) :
    (w.typeId object).isType typemaskUnit=true := by
  unfold toUnit at h
  split_ifs at h with ht
  · exact ht
  · exact Bool.noConfusion (Option.some.inj h)

omit [DecidableEq Obj] in
theorem isType_of_both {target : Option Obj} {f : Obj → Obj → Bool}
    (h : target.any (fun toObject => (toUnit w toObject).any fun other =>
      (toUnit w object).any fun unit => f unit other)=true) :
    (w.typeId object).isType typemaskUnit=true ∧
      ∃ toObject,target=some toObject ∧ (w.typeId toObject).isType typemaskUnit=true := by
  cases target with
  | none => exact Bool.noConfusion h
  | some toObject =>
    have hother : (toUnit w toObject).any (fun other =>
        (toUnit w object).any fun unit => f unit other)=true := h
    refine ⟨?_,toObject,rfl,isType_of_toUnit hother⟩
    cases ht : toUnit w toObject with
    | none => rw [ht] at hother; exact Bool.noConfusion hother
    | some other => rw [ht] at hother; exact isType_of_toUnit hother

/-- A condition is met only by objects it can be about. -/
theorem subjects_of_condMeets (h : condMeets w info c object=some true) :
    c.subjects (w.typeId object)=true := by
  unfold condMeets at h
  unfold Condition.subjects
  cases hk : c.conditionType <;> rw [hk] at h <;> dsimp only at h ⊢
  case aura | unitClass | race | hasUnitState | alive | unitState | inWater =>
    exact isType_of_toUnit (Option.some.inj h)
  case level | hpVal | hpPct => exact isType_of_compare h
  case relationTo | reactionTo => exact (isType_of_both (Option.some.inj h)).1
  case itemEquipped | reputationRank | achievement | team | gender | skill | questRewarded
      | questTaken | questComplete | questNone | spell | drunkenState | title =>
    exact player_of_toPlayer (Option.some.inj h)
  case item =>
    by_contra hne
    have hnone : toPlayer w object=none := if_neg fun ht => hne (decide_eq_true ht)
    rw [hnone] at h
    exact Bool.noConfusion (Option.some.inj h)
  case hasMount =>
    have hmount := Option.some.inj h
    unfold hasMount at hmount
    split at hmount
    · rename_i ht
      exact decide_eq_true ht
    · exact Bool.noConfusion hmount
  case objectEntryGuid =>
    have hentry := Option.some.inj h
    unfold objectEntryGuid at hentry
    split_ifs at hentry with ht
    exact decide_eq_true ht
  case typeMask => exact Option.some.inj h
  case unused24 | other => exact Bool.noConfusion (Option.some.inj h)

theorem isType_of_related (hk : c.conditionType=.relationTo ∨ c.conditionType=.reactionTo)
    (h : condMeets w info c object=some true) :
    ∃ toObject,info.target c.conditionValue1=some toObject ∧
      (w.typeId toObject).isType typemaskUnit=true := by
  unfold condMeets at h
  rcases hk with hk | hk <;> rw [hk] at h
  · exact (isType_of_both (Option.some.inj h)).2
  · exact (isType_of_both (Option.some.inj h)).2

end Evaluation

section Masks

/-- Two masks meet in a bit. -/
theorem and_ne_zero_iff (a b : ℕ) : a&&&b≠0 ↔ ∃ i,a.testBit i=true ∧ b.testBit i=true := by
  constructor
  · intro h
    obtain ⟨i,hi⟩ := Nat.exists_testBit_of_ne_zero h
    rw [Nat.testBit_and,Bool.and_eq_true] at hi
    exact ⟨i,hi⟩
  · rintro ⟨i,ha,hb⟩ hzero
    have hi : (a&&&b).testBit i=true := by rw [Nat.testBit_and,ha,hb]; rfl
    rw [hzero,Nat.zero_testBit] at hi
    exact Bool.noConfusion hi

theorem and_two_pow_ne_zero (a i : ℕ) : decide (a&&&2^i≠0)=a.testBit i := by
  refine Bool.eq_iff_iff.mpr ((decide_eq_true_iff.trans (and_ne_zero_iff a (2^i))).trans ?_)
  constructor
  · rintro ⟨j,ha,hj⟩
    rw [Nat.testBit_two_pow] at hj
    rwa [of_decide_eq_true hj]
  · intro ha
    exact ⟨i,ha,by rw [Nat.testBit_two_pow_self]⟩

theorem otherTypemasks_testBit :
    ∀ i < 16,¬(i=3 ∨ i=4 ∨ i=5 ∨ i=7) → otherTypemasks.testBit i=true := by decide

/-- A checked type mask has four bits that matter. -/
theorem testBit_of_checked {v i : ℕ} (h : v&&&otherTypemasks=0) (hi : i < 16)
    (hv : v.testBit i=true) : i=3 ∨ i=4 ∨ i=5 ∨ i=7 := by
  by_contra hne
  exact (and_ne_zero_iff v otherTypemasks).mpr ⟨i,hv,otherTypemasks_testBit i hi hne⟩ h

/-- An object is of a checked type mask where its own mask has one of these bits. -/
theorem isType_checked {v : ℕ} (h : v&&&otherTypemasks=0) (t : TypeID) :
    t.isType v=([3,4,5,7].any fun i => v.testBit i && t.objectType.testBit i) := by
  unfold TypeID.isType
  refine Bool.eq_iff_iff.mpr ((decide_eq_true_iff.trans (and_ne_zero_iff _ _)).trans ?_)
  rw [List.any_eq_true]
  constructor
  · rintro ⟨i,hv,ht⟩
    rw [Nat.testBit_mod_two_pow,Bool.and_eq_true,decide_eq_true_eq] at hv
    refine ⟨i,?_,by rw [hv.2,ht]; rfl⟩
    rcases testBit_of_checked h hv.1 hv.2 with rfl | rfl | rfl | rfl <;> decide
  · rintro ⟨i,hi,hboth⟩
    rw [Bool.and_eq_true] at hboth
    refine ⟨i,?_,hboth.2⟩
    rw [Nat.testBit_mod_two_pow,hboth.1,Bool.and_true,decide_eq_true_eq]
    have hsmall : ∀ i∈[3,4,5,7],i < 16 := by decide
    exact hsmall i hi

theorem testBit_gridMaskOfTypeMask {v : ℕ} (h : v&&&otherTypemasks=0) {t : TypeID} {i : ℕ}
    (hi : t.gridBit=some i) : (gridMaskOfTypeMask v).testBit i=t.isType v := by
  rw [isType_checked h]
  have hbit (j : ℕ) : v&&&2^j≠0 ↔ v.testBit j=true :=
    decide_eq_true_iff.symm.trans (Bool.eq_iff_iff.mp (and_two_pow_ne_zero v j))
  have hunit : v&&&typemaskUnit≠0 ↔ v.testBit 3=true := hbit 3
  have hplayer : v&&&typemaskPlayer≠0 ↔ v.testBit 4=true := hbit 4
  have hobject : v&&&typemaskGameobject≠0 ↔ v.testBit 5=true := hbit 5
  have hcorpse : v&&&typemaskCorpse≠0 ↔ v.testBit 7=true := hbit 7
  have harea : v&&&typemaskAreatrigger≠0 ↔ v.testBit 8=true := hbit 8
  have h8 : v.testBit 8=false := by
    by_contra h8
    rcases testBit_of_checked h (by decide) (Bool.eq_true_of_not_eq_false h8) with h | h | h | h <;>
      exact absurd h (by decide)
  unfold gridMaskOfTypeMask
  rw [if_congr hunit rfl rfl,if_congr hplayer rfl rfl,if_congr hobject rfl rfl,
    if_congr hcorpse rfl rfl,if_congr harea rfl rfl,h8]
  simp only [List.any_cons,List.any_nil]
  cases v.testBit 3 <;> cases v.testBit 4 <;> cases v.testBit 5 <;> cases v.testBit 7 <;>
    cases t <;> cases hi <;> rfl

variable {stores : LoadingStores} {c : Condition}

/-- The mask of a checked condition that is not turned around has the bits of its subjects. -/
theorem mask_of_valid (hvalid : isConditionTypeValid stores c=true)
    (hneg : c.negativeCondition=false) (hhandled : c.handled=true) :
    ∃ mask,c.getSearcherTypeMaskForCondition=some mask ∧
      ∀ t i,t.gridBit=some i → mask.testBit i=c.subjects t := by
  have htarget := target_lt_of_valid hvalid
  unfold isConditionTypeValid at hvalid
  dsimp only at hvalid
  rw [if_neg (not_le.mpr htarget)] at hvalid
  unfold Condition.getSearcherTypeMaskForCondition Condition.subjects
  unfold Condition.handled at hhandled
  dsimp only
  rw [if_neg (by rw [hneg]; exact Bool.false_ne_true)]
  cases hk : c.conditionType <;> rw [hk] at hvalid hhandled <;> dsimp only at hvalid ⊢
  case unused24 | other => exact Bool.noConfusion hhandled
  case objectEntryGuid =>
    refine ⟨_,rfl,fun t i hi => ?_⟩
    split at hvalid
    all_goals first
      | exact Bool.noConfusion hvalid
      | rename_i hv
        rw [hv]
        cases t <;> cases hi <;> rfl
  case typeMask =>
    rw [Bool.and_eq_true,decide_eq_true_eq,decide_eq_true_eq] at hvalid
    exact ⟨_,rfl,fun t i hi => testBit_gridMaskOfTypeMask hvalid.2 hi⟩
  all_goals
    refine ⟨_,rfl,fun t i hi => ?_⟩
    cases t <;> cases hi <;> rfl

/-- A row of a kind without a mask stops the search by its mask. -/
theorem unhandled_mask (hneg : c.negativeCondition=false) (hhandled : c.handled=false) :
    c.getSearcherTypeMaskForCondition=none := by
  unfold Condition.getSearcherTypeMaskForCondition
  unfold Condition.handled at hhandled
  rw [if_neg (by rw [hneg]; exact Bool.false_ne_true)]
  cases hk : c.conditionType <;> rw [hk] at hhandled <;> exact Bool.noConfusion hhandled

/-- A known comparison has an answer. -/
theorem compareValues_returns {α : Type*} [LinearOrder α] {type : ℕ} (h : type < compTypeMax)
    (val1 val2 : α) : ∃ met,compareValues type val1 val2=some met := by
  match type,h with
  | 0,_ => exact ⟨_,rfl⟩
  | 1,_ => exact ⟨_,rfl⟩
  | 2,_ => exact ⟨_,rfl⟩
  | 3,_ => exact ⟨_,rfl⟩
  | 4,_ => exact ⟨_,rfl⟩

/-- No assertion of the evaluator fails for a checked condition. -/
theorem condMeets_returns {Obj : Type*} [DecidableEq Obj] {w : World Obj}
    {info : ConditionSourceInfo Obj} (hvalid : isConditionTypeValid stores c=true)
    (object : Obj) : ∃ met,condMeets w info c object=some met := by
  have htarget := target_lt_of_valid hvalid
  unfold isConditionTypeValid at hvalid
  dsimp only at hvalid
  rw [if_neg (not_le.mpr htarget)] at hvalid
  unfold condMeets
  cases hk : c.conditionType <;> rw [hk] at hvalid <;> dsimp only at hvalid ⊢
  case item =>
    rw [Bool.and_eq_true,decide_eq_true_eq] at hvalid
    cases toPlayer w object with
    | none => exact ⟨_,rfl⟩
    | some player => exact ⟨_,if_neg hvalid.2⟩
  case level =>
    cases toUnit w object with
    | none => exact ⟨_,rfl⟩
    | some unit => exact compareValues_returns (of_decide_eq_true hvalid) _ _
  case hpVal =>
    cases toUnit w object with
    | none => exact ⟨_,rfl⟩
    | some unit => exact compareValues_returns (of_decide_eq_true hvalid) _ _
  case hpPct =>
    rw [Bool.and_eq_true,decide_eq_true_eq,decide_eq_true_eq] at hvalid
    cases toUnit w object with
    | none => exact ⟨_,rfl⟩
    | some unit => exact compareValues_returns hvalid.2 _ _
  case distanceTo =>
    rw [Bool.and_eq_true,decide_eq_true_eq] at hvalid
    cases info.target c.conditionValue1 with
    | none => exact ⟨_,rfl⟩
    | some toObject => exact compareValues_returns hvalid.2 _ _
  all_goals exact ⟨_,rfl⟩

end Masks

end Projectnelth.ConditionModel
