import Mathlib
import Projectnelth.FlagMasks
import Projectnelth.ReputationModel
import Projectnelth.RunInvariant

/-!
# The counts of the factions

The four counters follow the factions through every change: as 8-bit numbers they are what
a recount gives. A faction whose standing has been changed stays between the bottom and
the cap, and the forced flags hold where the table does not say otherwise.
-/

namespace Projectnelth.ReputationModel

open FlagMasks KeyedList RunInvariant

section Flags
variable {flags flag mask : UInt8}

theorem has_or_of_disjoint (flags : UInt8) (h : flag &&& mask=0) :
    has (flags ||| flag) mask=has flags mask := by
  unfold has
  rw [or_and_of_disjoint flags h]

theorem has_clear_of_disjoint (flags : UInt8) (h : flag &&& mask=0) :
    has (flags &&& ~~~flag) mask=has flags mask := by
  unfold has
  rw [clear_and_of_disjoint flags h]

theorem has_or_self (flags : UInt8) (hflag : flag≠0) : has (flags ||| flag) flag := by
  unfold has
  rw [or_and_self]
  exact decide_eq_true hflag

theorem has_clear_self (flags flag : UInt8) : has (flags &&& ~~~flag) flag=false := by
  unfold has
  rw [clear_and_self]
  rfl

end Flags

section Factions
variable {faction : FactionState} {mask : UInt8}

/-- Only the flag for being visible is changed by `SetVisible`. -/
theorem setVisible_other (faction : FactionState) (h : FACTION_FLAG_VISIBLE &&& mask=0) :
    has faction.setVisible.Flags mask=has faction.Flags mask := by
  unfold FactionState.setVisible
  split
  · exact has_or_of_disjoint _ h
  · rfl

theorem setVisible_visible (faction : FactionState) :
    has faction.setVisible.Flags FACTION_FLAG_VISIBLE=
      (has faction.Flags FACTION_FLAG_VISIBLE || faction.comesUp) := by
  unfold FactionState.setVisible
  split
  · rename_i hup
    rw [hup,Bool.or_true]
    exact has_or_self _ (by decide)
  · rename_i hup
    rw [Bool.eq_false_of_not_eq_true hup,Bool.or_false]

theorem not_visible_of_comesUp (h : faction.comesUp) :
    has faction.Flags FACTION_FLAG_VISIBLE=false := by
  unfold FactionState.comesUp at h
  rw [Bool.and_eq_true] at h
  exact Bool.not_eq_true _ ▸ (Bool.not_eq_true' _).mp h.2

theorem special_of_comesUp (h : faction.comesUp)
    (hforced : has faction.Flags FACTION_FLAG_INVISIBLE_FORCED) :
    has faction.Flags FACTION_FLAG_SPECIAL := by
  have heither : has faction.Flags (FACTION_FLAG_INVISIBLE_FORCED ||| FACTION_FLAG_HIDDEN) := by
    unfold has at hforced ⊢
    refine decide_eq_true fun hzero => of_decide_eq_true hforced ?_
    have hsub : faction.Flags &&& FACTION_FLAG_INVISIBLE_FORCED=
        faction.Flags &&& (FACTION_FLAG_INVISIBLE_FORCED ||| FACTION_FLAG_HIDDEN) &&&
          FACTION_FLAG_INVISIBLE_FORCED := by
      rw [UInt8.and_assoc]
      rfl
    rw [hsub,hzero]
    rfl
  unfold FactionState.comesUp at h
  rw [heither,Bool.true_and,Bool.not_not,Bool.and_eq_true] at h
  exact h.1

/-- Only the flag for war is changed by `SetAtWar`. -/
theorem setAtWar_other (faction : FactionState) (atWar : Bool)
    (h : FACTION_FLAG_AT_WAR &&& mask=0) :
    has (faction.setAtWar atWar).Flags mask=has faction.Flags mask := by
  unfold FactionState.setAtWar
  split
  · rfl
  split
  · rfl
  · split
    · exact has_or_of_disjoint _ h
    · exact has_clear_of_disjoint _ h

theorem setAtWar_peace {atWar : Bool} (hwar : has (faction.setAtWar atWar).Flags FACTION_FLAG_AT_WAR)
    (hpeace : has faction.Flags FACTION_FLAG_PEACE_FORCED) :
    has faction.Flags FACTION_FLAG_AT_WAR := by
  unfold FactionState.setAtWar at hwar
  rw [hpeace,Bool.and_true] at hwar
  split at hwar
  · exact hwar
  split at hwar
  · exact hwar
  · rw [has_clear_self] at hwar
    exact absurd hwar Bool.false_ne_true

/-- Only the flag for being inactive is changed by `SetInactive`. -/
theorem setInactive_other (faction : FactionState) (inactive : Bool)
    (h : FACTION_FLAG_INACTIVE &&& mask=0) :
    has (faction.setInactive inactive).Flags mask=has faction.Flags mask := by
  unfold FactionState.setInactive
  split
  · rfl
  split
  · rfl
  · split
    · exact has_or_of_disjoint _ h
    · exact has_clear_of_disjoint _ h

end Factions

/-- The flags of a faction are right, given those it came with. -/
structure FlagsProper (default flags : UInt8) : Prop where
  forced : ∀ mask∈[FACTION_FLAG_HIDDEN,FACTION_FLAG_INVISIBLE_FORCED,FACTION_FLAG_PEACE_FORCED,
    FACTION_FLAG_SPECIAL],has flags mask=has default mask
  peace : has flags FACTION_FLAG_AT_WAR → has flags FACTION_FLAG_PEACE_FORCED →
    has default FACTION_FLAG_AT_WAR
  /-- A visible faction is not forced to be invisible, unless it came so or is special. -/
  invisible : has flags FACTION_FLAG_VISIBLE → has flags FACTION_FLAG_INVISIBLE_FORCED →
    has flags FACTION_FLAG_SPECIAL ∨ has default FACTION_FLAG_VISIBLE

section Proper
variable {default : UInt8} {faction : FactionState}

theorem FlagsProper.refl (flags : UInt8) : FlagsProper flags flags :=
  ⟨fun _ _ => rfl,fun h _ => h,fun h _ => Or.inr h⟩

theorem FlagsProper.change (h : FlagsProper default faction.Flags) {flags : UInt8}
    (hother : ∀ mask∈[FACTION_FLAG_HIDDEN,FACTION_FLAG_INVISIBLE_FORCED,FACTION_FLAG_PEACE_FORCED,
      FACTION_FLAG_SPECIAL],has flags mask=has faction.Flags mask)
    (hwar : has flags FACTION_FLAG_AT_WAR → has faction.Flags FACTION_FLAG_PEACE_FORCED →
      has faction.Flags FACTION_FLAG_AT_WAR)
    (hvisible : has flags FACTION_FLAG_VISIBLE → has faction.Flags FACTION_FLAG_INVISIBLE_FORCED →
      has faction.Flags FACTION_FLAG_SPECIAL ∨ has faction.Flags FACTION_FLAG_VISIBLE) :
    FlagsProper default flags := by
  have hpeace := hother FACTION_FLAG_PEACE_FORCED (by decide)
  have hinvisible := hother FACTION_FLAG_INVISIBLE_FORCED (by decide)
  have hspecial := hother FACTION_FLAG_SPECIAL (by decide)
  refine ⟨fun mask hmask => (hother mask hmask).trans (h.forced mask hmask),fun hatWar hforced => ?_,
    fun hseen hforced => ?_⟩
  · rw [hpeace] at hforced
    exact h.peace (hwar hatWar hforced) hforced
  rw [hinvisible] at hforced
  rw [hspecial]
  rcases hvisible hseen hforced with hspec | hbefore
  · exact Or.inl hspec
  · exact h.invisible hbefore hforced

theorem FlagsProper.setVisible (h : FlagsProper default faction.Flags) :
    FlagsProper default faction.setVisible.Flags := by
  refine h.change (fun mask hmask => setVisible_other _ ?_) (fun hwar _ => ?_)
    fun hseen hforced => ?_
  · revert mask
    decide +kernel
  · rwa [setVisible_other _ (by decide)] at hwar
  rw [setVisible_visible,Bool.or_eq_true] at hseen
  rcases hseen with hbefore | hup
  · exact Or.inr hbefore
  · exact Or.inl (special_of_comesUp hup hforced)

theorem FlagsProper.setAtWar (h : FlagsProper default faction.Flags) (atWar : Bool) :
    FlagsProper default (faction.setAtWar atWar).Flags := by
  refine h.change (fun mask hmask => setAtWar_other _ _ ?_) (fun hwar hpeace => ?_)
    fun hseen _ => ?_
  · revert mask
    decide +kernel
  · exact setAtWar_peace hwar hpeace
  · rw [setAtWar_other _ _ (by decide)] at hseen
    exact Or.inr hseen

theorem FlagsProper.setInactive (h : FlagsProper default faction.Flags) (inactive : Bool) :
    FlagsProper default (faction.setInactive inactive).Flags := by
  refine h.change (fun mask hmask => setInactive_other _ _ ?_) (fun hwar _ => ?_)
    fun hseen _ => ?_
  · revert mask
    decide +kernel
  · rwa [setInactive_other _ _ (by decide)] at hwar
  · rw [setInactive_other _ _ (by decide)] at hseen
    exact Or.inr hseen

end Proper

section Counts
variable {w : World} {s : ReputationMgr} {f f' : FactionState} {entry : FactionEntry}

/-- The base of a faction of the list. -/
def baseOf (w : World) (faction : FactionState) : Int32 :=
  match lookupEntry w faction.ID with
  | some entry => getBaseReputation w entry
  | none => 0

/-- The rank that the player has with a faction of the list. -/
def rankOf (w : World) (faction : FactionState) : ReputationRank :=
  reputationToRank (baseOf w faction+faction.Standing)

/-- The number of the factions with such a rank or a higher one. -/
def ranked (w : World) (rank : ReputationRank) (factions : List FactionState) : ℕ :=
  factions.countP fun faction => decide ((rankOf w faction).value ≥ rank.value)

/-- The number of the visible factions. -/
def visible (factions : List FactionState) : ℕ :=
  factions.countP fun faction => has faction.Flags FACTION_FLAG_VISIBLE

/-- The entry that a faction of the list is for. -/
structure EntryOf (w : World) (faction : FactionState) (entry : FactionEntry) : Prop where
  /-- The entry is in the store. -/
  stored : entry∈w.factionStore
  listed : entry.canHaveReputation
  id : faction.ID=entry.ID
  listID : faction.ReputationListID=entry.repListID

/-- The counters are what a recount gives, and the flags are right. -/
structure Counted (w : World) (s : ReputationMgr) : Prop where
  keys : (s.factions.map FactionState.ReputationListID).Nodup
  /-- Each faction is for an entry, with flags that fit the ones it came with. -/
  fits : ∀ faction∈s.factions,∃ entry,EntryOf w faction entry ∧
    FlagsProper (getDefaultStateFlags w entry) faction.Flags
  visible : s.visibleFactionCount=UInt8.ofNat (visible s.factions)
  honored : s.honoredFactionCount=UInt8.ofNat (ranked w .honored s.factions)
  revered : s.reveredFactionCount=UInt8.ofNat (ranked w .revered s.factions)
  exalted : s.exaltedFactionCount=UInt8.ofNat (ranked w .exalted s.factions)

/-- A counter that follows one faction to another rank. -/
theorem recount_eq {count : UInt8} {n m : ℕ} {old new : Bool} (h : count=UInt8.ofNat n)
    (hcount : m+old.toNat=n+new.toNat) : recount count old new=UInt8.ofNat m := by
  subst h
  unfold recount
  cases old with
  | true =>
    cases new with
    | true =>
      obtain rfl : m=n := Nat.succ.inj hcount
      exact UInt8.sub_add_cancel _ _
    | false =>
      obtain rfl : m+1=n := hcount
      simp only [if_true,Bool.false_eq_true,if_false,UInt8.ofNat_add]
      exact UInt8.add_sub_cancel _ _
  | false =>
    cases new with
    | true =>
      obtain rfl : m=n+1 := hcount
      simp only [if_true,Bool.false_eq_true,if_false,UInt8.ofNat_add]
      rfl
    | false =>
      obtain rfl : m=n := hcount
      rfl

theorem recount_self (count : UInt8) (b : Bool) : recount count b b=count := by
  cases b with
  | true => exact UInt8.sub_add_cancel _ _
  | false => rfl

theorem updateRankCounters_self (s : ReputationMgr) (rank : ReputationRank) :
    updateRankCounters s rank rank=s := by
  unfold updateRankCounters
  rw [recount_self,recount_self,recount_self]

theorem toUInt32_inj {a b : Int32} (h : a.toUInt32=b.toUInt32) : a=b :=
  Int32.toBitVec_inj.mp (congrArg UInt32.toBitVec h)

theorem entry_of_listID {other : FactionEntry} (hentry : entry∈w.factionStore)
    (hlisted : entry.canHaveReputation) (hother : other∈w.factionStore)
    (hotherListed : other.canHaveReputation) (h : entry.repListID=other.repListID) :
    entry=other :=
  List.inj_on_of_nodup_map w.listIDs (List.mem_filter.mpr ⟨hentry,hlisted⟩)
    (List.mem_filter.mpr ⟨hother,hotherListed⟩) (toUInt32_inj h)

theorem mem_of_lookupEntry {id : UInt32} (h : lookupEntry w id=some entry) :
    entry∈w.factionStore := mem_of_lookup h

theorem EntryOf.baseOf_eq (h : EntryOf w f entry) : baseOf w f=getBaseReputation w entry := by
  unfold baseOf lookupEntry
  rw [h.id,lookup_of_mem w.ids h.stored]

theorem Counted.entryOf (h : Counted w s) (hentry : entry∈w.factionStore)
    (hf : lookup FactionState.ReputationListID entry.repListID s.factions=some f) :
    EntryOf w f entry := by
  obtain ⟨other,hother,-⟩ := h.fits f (mem_of_lookup hf)
  have hplace : entry.repListID=other.repListID := (key_of_lookup hf).symm.trans hother.listID
  have hlisted : entry.canHaveReputation := by
    have heq : entry.reputationListID=other.reputationListID := toUInt32_inj hplace
    have hin := hother.listed
    unfold FactionEntry.canHaveReputation at hin ⊢
    rwa [heq]
  rw [entry_of_listID hentry hlisted hother.stored hother.listed hplace]
  exact hother

/-- A faction is written back with another standing and other flags. -/
theorem Counted.write (h : Counted w s)
    (hf : lookup FactionState.ReputationListID f'.ReputationListID s.factions=some f)
    (hid : f'.ID=f.ID)
    (hflags : ∀ default,FlagsProper default f.Flags → FlagsProper default f'.Flags)
    {b : Bool} (hup : has f'.Flags FACTION_FLAG_VISIBLE=(has f.Flags FACTION_FLAG_VISIBLE || b))
    (hdown : b → has f.Flags FACTION_FLAG_VISIBLE=false) :
    Counted w (updateRankCounters
      (ReputationModel.write
        { s with visibleFactionCount := if b then s.visibleFactionCount+1
                                        else s.visibleFactionCount } f')
      (rankOf w f) (rankOf w f')) := by
  have hlist : f'.ReputationListID=f.ReputationListID := (key_of_lookup hf).symm
  have hranked := fun rank : ReputationRank => countP_replace
    (fun faction => decide ((rankOf w faction).value ≥ rank.value)) h.keys hf
  refine ⟨?_,fun faction hfaction => ?_,?_,recount_eq h.honored (hranked .honored),
    recount_eq h.revered (hranked .revered),recount_eq h.exalted (hranked .exalted)⟩
  · have hkeys : (replace FactionState.ReputationListID f' s.factions).map
        FactionState.ReputationListID=s.factions.map FactionState.ReputationListID :=
      map_key_replace f' _
    exact hkeys ▸ h.keys
  · rcases mem_of_mem_replace hfaction with rfl | hold
    · obtain ⟨entry,hentry,hproper⟩ := h.fits f (mem_of_lookup hf)
      exact ⟨entry,⟨hentry.stored,hentry.listed,hid.trans hentry.id,hlist.trans hentry.listID⟩,
        hflags _ hproper⟩
    · exact h.fits faction hold
  · have hseen := countP_replace (fun faction : FactionState =>
      has faction.Flags FACTION_FLAG_VISIBLE) h.keys hf
    have hcount : (if b then s.visibleFactionCount+1 else s.visibleFactionCount)=
        recount s.visibleFactionCount false b := rfl
    refine hcount.trans (recount_eq h.visible ?_)
    rw [hup] at hseen
    cases b with
    | true =>
      rw [hdown rfl] at hseen
      exact hseen
    | false =>
      rw [Bool.or_false] at hseen
      exact (Nat.add_right_cancel hseen).trans (Nat.add_zero _).symm

/-- A standing between the bottom and the cap. -/
def Within (standing : Int32) : Prop := Reputation_Bottom ≤ standing ∧ standing ≤ Reputation_Cap

/-- A faction stays as it was, or its standing comes between the bottom and the cap. -/
def Kept (w : World) (s s' : ReputationMgr) : Prop :=
  ∀ faction∈s'.factions,Within (baseOf w faction+faction.Standing) ∨
    ∃ before∈s.factions,before.ID=faction.ID ∧ before.Standing=faction.Standing

/-- The counts go on to be right, and the standings in their bounds. -/
def Advances (w : World) (s s' : ReputationMgr) : Prop :=
  Counted w s → Counted w s' ∧ Kept w s s'

theorem Kept.refl (w : World) (s : ReputationMgr) : Kept w s s :=
  fun faction hfaction => Or.inr ⟨faction,hfaction,rfl,rfl⟩

theorem Kept.trans {s₁ s₂ s₃ : ReputationMgr} (h : Kept w s₁ s₂) (h' : Kept w s₂ s₃) :
    Kept w s₁ s₃ := by
  intro faction hfaction
  rcases h' faction hfaction with hwithin | ⟨before,hbefore,hid,hstanding⟩
  · exact Or.inl hwithin
  · rcases h before hbefore with hwithin | ⟨first,hfirst,hid',hstanding'⟩
    · unfold baseOf at hwithin ⊢
      rw [hid,hstanding] at hwithin
      exact Or.inl hwithin
    · exact Or.inr ⟨first,hfirst,hid'.trans hid,hstanding'.trans hstanding⟩

theorem Advances.refl (w : World) (s : ReputationMgr) : Advances w s s :=
  fun h => ⟨h,Kept.refl w s⟩

theorem Advances.trans {s₁ s₂ s₃ : ReputationMgr} (h : Advances w s₁ s₂)
    (h' : Advances w s₂ s₃) : Advances w s₁ s₃ := by
  intro hcounted
  obtain ⟨hcounted₂,hkept⟩ := h hcounted
  obtain ⟨hcounted₃,hkept'⟩ := h' hcounted₂
  exact ⟨hcounted₃,hkept.trans hkept'⟩

/-- A faction with other flags: it may have come up, and its flags are as right as before. -/
structure Reflagged (f f' : FactionState) (b : Bool) : Prop where
  id : f'.ID=f.ID
  /-- The place in the list stays. -/
  listID : f'.ReputationListID=f.ReputationListID
  /-- The standing stays. -/
  standing : f'.Standing=f.Standing
  /-- It is visible if it was, or has come up. -/
  seen : has f'.Flags FACTION_FLAG_VISIBLE=(has f.Flags FACTION_FLAG_VISIBLE || b)
  /-- Its flags fit those it came with. -/
  proper : ∀ default,FlagsProper default f.Flags → FlagsProper default f'.Flags

theorem Reflagged.refl (f : FactionState) : Reflagged f f false :=
  ⟨rfl,rfl,rfl,(Bool.or_false _).symm,fun _ h => h⟩

theorem Reflagged.trans {f₁ f₂ f₃ : FactionState} {b : Bool} (h : Reflagged f₁ f₂ b)
    (h' : Reflagged f₂ f₃ false) : Reflagged f₁ f₃ b :=
  ⟨h'.id.trans h.id,h'.listID.trans h.listID,h'.standing.trans h.standing,
    by rw [h'.seen,Bool.or_false,h.seen],fun default hdefault => h'.proper default
      (h.proper default hdefault)⟩

theorem reflagged_setVisible (f : FactionState) : Reflagged f f.setVisible f.comesUp := by
  refine ⟨?_,?_,?_,setVisible_visible f,fun _ h => h.setVisible⟩
  all_goals
    unfold FactionState.setVisible
    split <;> rfl

theorem reflagged_setAtWar (f : FactionState) (atWar : Bool) :
    Reflagged f (f.setAtWar atWar) false := by
  have hsame : (f.setAtWar atWar).ID=f.ID ∧
      (f.setAtWar atWar).ReputationListID=f.ReputationListID ∧
      (f.setAtWar atWar).Standing=f.Standing := by
    unfold FactionState.setAtWar
    split
    · exact ⟨rfl,rfl,rfl⟩
    · split
      · exact ⟨rfl,rfl,rfl⟩
      · split <;> exact ⟨rfl,rfl,rfl⟩
  refine ⟨hsame.1,hsame.2.1,hsame.2.2,?_,fun _ h => h.setAtWar atWar⟩
  rw [setAtWar_other _ _ (by decide),Bool.or_false]

theorem reflagged_setInactive (f : FactionState) (inactive : Bool) :
    Reflagged f (f.setInactive inactive) false := by
  have hsame : (f.setInactive inactive).ID=f.ID ∧
      (f.setInactive inactive).ReputationListID=f.ReputationListID ∧
      (f.setInactive inactive).Standing=f.Standing := by
    unfold FactionState.setInactive
    split
    · exact ⟨rfl,rfl,rfl⟩
    · split
      · exact ⟨rfl,rfl,rfl⟩
      · split <;> exact ⟨rfl,rfl,rfl⟩
  refine ⟨hsame.1,hsame.2.1,hsame.2.2,?_,fun _ h => h.setInactive inactive⟩
  rw [setInactive_other _ _ (by decide),Bool.or_false]

/-- A change that may be left out. -/
theorem Reflagged.ite {f f' : FactionState} {b c : Bool} (h : Reflagged f f' b) :
    Reflagged f (if c then f' else f) (c && b) := by
  cases c with
  | true => exact h
  | false => exact Reflagged.refl f

theorem within_clamp (standing : Int32) :
    Within (if standing > Reputation_Cap then Reputation_Cap
      else if standing < Reputation_Bottom then Reputation_Bottom else standing) := by
  split
  · exact ⟨by decide,Int32.le_refl _⟩
  rename_i hcap
  split
  · exact ⟨Int32.le_refl _,by decide⟩
  · rename_i hbottom
    exact ⟨Int32.not_lt.mp hbottom,Int32.not_lt.mp hcap⟩

theorem advances_setOne (hentry : entry∈w.factionStore) (standing : Int32) (incremental : Bool) :
    Advances w s (setOneFactionReputation w s entry standing incremental).1 := by
  unfold setOneFactionReputation
  split
  · exact Advances.refl w s
  rename_i faction hf
  dsimp only
  intro h
  generalize (if incremental then
    Int32.ofInt ((standing.toInt : ℚ)*w.rate+1/2).floor+
      (faction.Standing+getBaseReputation w entry) else standing)=amount
  have hwithin := within_clamp amount
  generalize (if amount > Reputation_Cap then Reputation_Cap
    else if amount < Reputation_Bottom then Reputation_Bottom else amount)=reached at hwithin ⊢
  have hbase := (h.entryOf hentry hf).baseOf_eq
  generalize hmoved : ({ faction with Standing := reached-getBaseReputation w entry } :
    FactionState)=moved
  have hflags : moved.Flags=faction.Flags := by rw [←hmoved]
  generalize harmed : (if (reputationToRank reached).value ≤ ReputationRank.hostile.value then
    moved.setVisible.setAtWar true else moved.setVisible)=armed
  have hchange : Reflagged moved armed moved.comesUp := by
    rw [←harmed]
    split
    · exact (reflagged_setVisible moved).trans (reflagged_setAtWar _ true)
    · exact reflagged_setVisible moved
  have hsame : armed.ID=faction.ID ∧ armed.ReputationListID=faction.ReputationListID ∧
      armed.Standing=reached-getBaseReputation w entry := by
    rw [hchange.id,hchange.listID,hchange.standing,←hmoved]
    exact ⟨rfl,rfl,rfl⟩
  have hbase' : baseOf w armed=getBaseReputation w entry := by
    rw [←hbase]
    unfold baseOf
    rw [hsame.1]
  have hreached : baseOf w armed+armed.Standing=reached := by
    rw [hbase',hsame.2.2,Int32.add_comm,Int32.sub_add_cancel]
  have hrank : rankOf w faction=
      reputationToRank (faction.Standing+getBaseReputation w entry) := by
    unfold rankOf
    rw [hbase,Int32.add_comm]
  have hrank' : rankOf w armed=reputationToRank reached := by
    unfold rankOf
    rw [hreached]
  have hlookup : lookup FactionState.ReputationListID armed.ReputationListID s.factions=
      some faction := by
    rw [hsame.2.1,key_of_lookup hf]
    exact hf
  have hwrite := h.write hlookup hsame.1 (hflags ▸ hchange.proper) (hflags ▸ hchange.seen)
    (hflags ▸ not_visible_of_comesUp)
  rw [hrank,hrank'] at hwrite
  refine ⟨hwrite,fun other hother => ?_⟩
  rcases mem_of_mem_replace hother with rfl | hold
  · exact Or.inl (hreached ▸ hwithin)
  · exact Or.inr ⟨other,hold,rfl,rfl⟩

theorem Counted.writeFlags (h : Counted w s)
    (hf : lookup FactionState.ReputationListID f.ReputationListID s.factions=some f) {b : Bool}
    (hchange : Reflagged f f' b) (hdown : b → has f.Flags FACTION_FLAG_VISIBLE=false) :
    Counted w
      (ReputationModel.write
        { s with visibleFactionCount := if b then s.visibleFactionCount+1
                                        else s.visibleFactionCount } f') := by
  have hrank : rankOf w f'=rankOf w f := by
    unfold rankOf baseOf
    rw [hchange.id,hchange.standing]
  have hwrite := h.write (hchange.listID ▸ hf) hchange.id hchange.proper hchange.seen hdown
  rw [hrank,updateRankCounters_self] at hwrite
  exact hwrite

theorem advances_writeFlags {key : UInt32}
    (hf : lookup FactionState.ReputationListID key s.factions=some f) {b : Bool}
    (hchange : Reflagged f f' b) (hdown : b → has f.Flags FACTION_FLAG_VISIBLE=false) :
    Advances w s
      (write
        { s with visibleFactionCount := if b then s.visibleFactionCount+1
                                        else s.visibleFactionCount } f') := by
  intro h
  refine ⟨h.writeFlags ((key_of_lookup hf) ▸ hf) hchange hdown,fun other hother => ?_⟩
  rcases mem_of_mem_replace hother with rfl | hold
  · exact Or.inr ⟨f,mem_of_lookup hf,hchange.id.symm,hchange.standing.symm⟩
  · exact Or.inr ⟨other,hold,rfl,rfl⟩

theorem advances_setVisible (s : ReputationMgr) (entry : FactionEntry) :
    Advances w s (setVisible s entry) := by
  unfold setVisible
  split
  · split
    · exact Advances.refl w s
    · rename_i faction hf
      exact advances_writeFlags hf (reflagged_setVisible faction) not_visible_of_comesUp
  · exact Advances.refl w s

theorem advances_setAtWar (s : ReputationMgr) (repListID : UInt32) (on : Bool) :
    Advances w s (setAtWar s repListID on) := by
  unfold setAtWar
  split
  · exact Advances.refl w s
  rename_i faction hf
  split
  · exact Advances.refl w s
  · exact advances_writeFlags hf (reflagged_setAtWar faction on) fun h => (by cases h)

theorem advances_setInactive (s : ReputationMgr) (repListID : UInt32) (on : Bool) :
    Advances w s (setInactive s repListID on) := by
  unfold setInactive
  split
  · exact Advances.refl w s
  · rename_i faction hf
    exact advances_writeFlags hf (reflagged_setInactive faction on) fun h => (by cases h)

/-- A loop over something else goes on as each of its turns does. -/
theorem advances_foldl {β : Type*} {turn : ReputationMgr → β → ReputationMgr}
    (h : ∀ s b,Advances w s (turn s b)) (s : ReputationMgr) (l : List β) :
    Advances w s (l.foldl turn s) := by
  induction l generalizing s with
  | nil => exact Advances.refl w s
  | cons b l ih => exact (h s b).trans (ih (turn s b))

theorem advances_spillToTarget (standing : Int32) (incremental : Bool) (s : ReputationMgr)
    (target : SpilloverTarget) : Advances w s (spillToTarget w standing incremental s target) := by
  unfold spillToTarget
  split
  · split
    · rename_i hentry
      exact advances_setOne (mem_of_lookupEntry hentry) _ _
    · exact Advances.refl w s
  · exact Advances.refl w s

theorem advances_spillToFaction (entry : FactionEntry) (amount : ℚ) (incremental : Bool)
    (result : ReputationMgr×Bool) (faction : UInt32) :
    Advances w result.1 (spillToFaction w entry amount incremental result faction).1 := by
  unfold spillToFaction
  split
  · exact Advances.refl w _
  rename_i hentry
  split
  · exact Advances.refl w _
  dsimp only
  split
  · exact advances_setOne (mem_of_lookupEntry hentry) _ _
  · exact Advances.refl w _

theorem advances_spread (entry : FactionEntry) (amount : ℚ) (incremental : Bool)
    (flist : List UInt32) (result : ReputationMgr×Bool) :
    Advances w result.1
      (flist.foldl (spillToFaction w entry amount incremental) result).1 := by
  induction flist generalizing result with
  | nil => exact Advances.refl w _
  | cons faction flist ih =>
    exact (advances_spillToFaction entry amount incremental result faction).trans (ih _)

theorem advances_spillOver (s : ReputationMgr) (entry : FactionEntry) (standing : Int32)
    (incremental : Bool) : Advances w s (spillOver w s entry standing incremental).1 := by
  unfold spillOver
  dsimp only
  split
  · exact advances_spread entry _ incremental _ (s,false)
  split
  · split
    · exact Advances.refl w s
    rename_i hparent
    split
    · split
      · exact advances_setOne (mem_of_lookupEntry hparent) _ _
      · exact advances_spread entry _ incremental _ (s,false)
    · exact advances_spread entry _ incremental _ (s,false)
  · exact Advances.refl w s

theorem advances_setReputation (hentry : entry∈w.factionStore) (standing : Int32)
    (incremental : Bool) : Advances w s (setReputation w s entry standing incremental).1 := by
  unfold setReputation
  dsimp only
  generalize w.onReputationChange entry.ID standing incremental=amount
  have hspilled : Advances w s (spill w s entry amount incremental).1 := by
    unfold spill
    split
    · exact advances_foldl (advances_spillToTarget amount incremental) s _
    · exact advances_spillOver s entry amount incremental
  split
  · exact hspilled.trans (advances_setOne hentry _ _)
  · exact hspilled

/-- Each operation goes on. -/
theorem advances_step (s : ReputationMgr) (op : Op) : Advances w s (step w s op) := by
  have hwith : ∀ (faction : UInt32) (f : FactionEntry → ReputationMgr),
      (∀ entry∈w.factionStore,Advances w s (f entry)) → Advances w s (withEntry w s faction f) := by
    intro faction f h
    unfold withEntry
    split
    · exact Advances.refl w s
    · rename_i hentry
      exact h _ (mem_of_lookupEntry hentry)
  cases op with
  | setReputation faction standing =>
    exact hwith faction _ fun entry hentry => advances_setReputation hentry standing false
  | modifyReputation faction standing =>
    exact hwith faction _ fun entry hentry => advances_setReputation hentry standing true
  | setOneFactionReputation faction standing incremental =>
    exact hwith faction _ fun entry hentry => advances_setOne hentry standing incremental
  | setVisibleTemplate faction =>
    unfold step setVisibleTemplate
    dsimp only
    split
    · exact Advances.refl w s
    split
    · exact Advances.refl w s
    · split
      · exact Advances.refl w s
      · exact advances_setVisible s _
  | setVisible faction => exact hwith faction _ fun entry _ => advances_setVisible s entry
  | setAtWar repListID on => exact advances_setAtWar s repListID on
  | setInactive repListID on => exact advances_setInactive s repListID on

end Counts

section Loading
variable {w : World} {s : ReputationMgr}

theorem Counted.append (h : Counted w s) {faction : FactionState} {entry : FactionEntry}
    (hentry : EntryOf w faction entry)
    (hflags : FlagsProper (getDefaultStateFlags w entry) faction.Flags)
    (hnew : ∀ other∈s.factions,other.ReputationListID≠faction.ReputationListID) :
    Counted w
      { factions := s.factions++[faction]
        visibleFactionCount := recount s.visibleFactionCount false
          (has faction.Flags FACTION_FLAG_VISIBLE)
        honoredFactionCount := recount s.honoredFactionCount false
          (decide ((rankOf w faction).value ≥ ReputationRank.honored.value))
        reveredFactionCount := recount s.reveredFactionCount false
          (decide ((rankOf w faction).value ≥ ReputationRank.revered.value))
        exaltedFactionCount := recount s.exaltedFactionCount false
          (decide ((rankOf w faction).value ≥ ReputationRank.exalted.value)) } := by
  have hcount : ∀ p : FactionState → Bool,
      (s.factions++[faction]).countP p+false.toNat=s.factions.countP p+(p faction).toNat := by
    intro p
    rw [List.countP_append,List.countP_singleton]
    cases p faction <;> rfl
  refine ⟨?_,fun other hother => ?_,recount_eq h.visible (hcount _),
    recount_eq h.honored (hcount _),recount_eq h.revered (hcount _),
    recount_eq h.exalted (hcount _)⟩
  · rw [List.map_append,List.map_singleton]
    refine List.nodup_append'.mpr ⟨h.keys,List.nodup_singleton _,?_⟩
    rw [List.disjoint_singleton,List.mem_map]
    rintro ⟨other,hother,heq⟩
    exact hnew other hother heq
  · rcases List.mem_append.mp hother with hold | hlast
    · exact h.fits other hold
    · rw [List.mem_singleton.mp hlast]
      exact ⟨entry,hentry,hflags⟩

/-- An entry of the table comes in, which is not in the list yet. -/
theorem counted_initializeFaction (h : Counted w s) {entry : FactionEntry}
    (hentry : entry∈w.factionStore)
    (hnew : ∀ faction∈s.factions,faction.ReputationListID≠entry.repListID)
    (hzero : ∀ faction∈s.factions,faction.Standing=0) :
    Counted w (initializeFaction w s entry) ∧
      (∀ faction∈(initializeFaction w s entry).factions,faction∈s.factions ∨
        (faction.ReputationListID=entry.repListID ∧ entry.canHaveReputation)) ∧
      ∀ faction∈(initializeFaction w s entry).factions,faction.Standing=0 := by
  unfold initializeFaction
  split
  · rename_i hlisted
    have hput := congrArg (·++[FactionState.mk entry.ID entry.repListID 0
      (getDefaultStateFlags w entry)]) (remove_of_forall_ne hnew)
    have hentryOf : EntryOf w (FactionState.mk entry.ID entry.repListID 0
        (getDefaultStateFlags w entry)) entry := ⟨hentry,hlisted,rfl,rfl⟩
    have hrank : rankOf w (FactionState.mk entry.ID entry.repListID 0
        (getDefaultStateFlags w entry))=reputationToRank (getBaseReputation w entry) := by
      unfold rankOf
      rw [hentryOf.baseOf_eq]
      exact congrArg reputationToRank (Int32.add_zero _)
    have happend := h.append hentryOf (FlagsProper.refl _) hnew
    rw [hrank] at happend
    dsimp only [put]
    refine ⟨hput ▸ happend,fun faction hfaction => ?_,fun faction hfaction => ?_⟩
    all_goals
      rcases List.mem_append.mp (hput ▸ hfaction) with hold | hlast
    · exact Or.inl hold
    · rw [List.mem_singleton.mp hlast]
      exact Or.inr ⟨rfl,hlisted⟩
    · exact hzero faction hold
    · rw [List.mem_singleton.mp hlast]
  · exact ⟨h,fun faction hfaction => Or.inl hfaction,hzero⟩

/-- The list as it is at first. -/
theorem counted_initializeFactions (w : World) :
    Counted w (initializeFactions w) ∧ ∀ faction∈(initializeFactions w).factions,
      faction.Standing=0 := by
  have hfold : ∀ (entries : List FactionEntry) (s : ReputationMgr),Counted w s →
      (∀ faction∈s.factions,faction.Standing=0) → (∀ entry∈entries,entry∈w.factionStore) →
      (∀ entry∈entries,entry.canHaveReputation → ∀ faction∈s.factions,
        faction.ReputationListID≠entry.repListID) →
      ((entries.filter FactionEntry.canHaveReputation).map
        FactionEntry.reputationListID).Nodup →
      Counted w (entries.foldl (initializeFaction w) s) ∧
        ∀ faction∈(entries.foldl (initializeFaction w) s).factions,faction.Standing=0 := by
    intro entries
    induction entries with
    | nil => exact fun s h hzero _ _ _ => ⟨h,hzero⟩
    | cons entry entries ih =>
      intro s h hzero hstored hnew hnodup
      have hlater := fun other hother => hstored other (List.mem_cons_of_mem _ hother)
      rw [List.foldl_cons]
      by_cases hlisted : entry.canHaveReputation
      · rw [List.filter_cons_of_pos hlisted,List.map_cons,List.nodup_cons] at hnodup
        obtain ⟨hcounted,hfrom,hzero'⟩ := counted_initializeFaction h
          (hstored entry List.mem_cons_self) (hnew entry List.mem_cons_self hlisted) hzero
        refine ih _ hcounted hzero' hlater (fun other hother hin faction hfaction heq => ?_)
          hnodup.2
        rcases hfrom faction hfaction with hold | ⟨hplace,-⟩
        · exact hnew other (List.mem_cons_of_mem _ hother) hin faction hold heq
        · refine hnodup.1 (List.mem_map.mpr ⟨other,List.mem_filter.mpr ⟨hother,hin⟩,?_⟩)
          exact toUInt32_inj (heq.symm.trans hplace)
      · have hskip : initializeFaction w s entry=s := if_neg hlisted
        rw [hskip]
        rw [List.filter_cons_of_neg hlisted] at hnodup
        exact ih s h hzero hlater (fun other hother => hnew other (List.mem_cons_of_mem _ hother))
          hnodup
  refine hfold w.factionStore _ ?_ (fun _ h => (by cases h)) (fun _ h => h)
    (fun _ _ _ _ h => (by cases h)) w.listIDs
  exact ⟨List.nodup_nil,fun _ h => (by cases h),rfl,rfl,rfl,rfl⟩

theorem counted_loadRow (h : Counted w s) {row : SavedRow}
    (hzero : ∀ faction∈s.factions,faction.ID=row.faction.toUInt32 → faction.Standing=0) :
    Counted w (loadRow w s row) ∧ ∀ faction∈(loadRow w s row).factions,
      faction∈s.factions ∨ faction.ID=row.faction.toUInt32 := by
  have hsame : Counted w s ∧ ∀ faction∈s.factions,
      faction∈s.factions ∨ faction.ID=row.faction.toUInt32 := ⟨h,fun _ hin => Or.inl hin⟩
  unfold loadRow
  split
  · exact hsame
  rename_i entry hentry
  have hid : entry.ID=row.faction.toUInt32 := key_of_lookup hentry
  split
  · split
    · exact hsame
    rename_i state hf
    have hentryOf := h.entryOf (mem_of_lookupEntry hentry) hf
    have hbase := hentryOf.baseOf_eq
    have hstart : state.Standing=0 :=
      hzero state (mem_of_lookup hf) (hentryOf.id.trans hid)
    dsimp only
    generalize hloaded : ({ state with Standing := row.standing } : FactionState)=loaded
    have hflags : loaded.Flags=state.Flags := by rw [←hloaded]
    have hmoved : loaded.ID=state.ID ∧ loaded.ReputationListID=state.ReputationListID ∧
        loaded.Standing=row.standing := by
      rw [←hloaded]
      exact ⟨rfl,rfl,rfl⟩
    generalize has row.flags.toUInt8 FACTION_FLAG_VISIBLE=visible
    generalize has row.flags.toUInt8 FACTION_FLAG_INACTIVE=inactive
    generalize has row.flags.toUInt8 FACTION_FLAG_AT_WAR=war
    generalize hplaced : (if inactive then
      (if visible then loaded.setVisible else loaded).setInactive true
      else if visible then loaded.setVisible else loaded)=placed
    have hplace : Reflagged loaded placed (visible && loaded.comesUp) := by
      rw [←hplaced]
      have hinactive := fun f : FactionState =>
        (reflagged_setInactive f true).ite (c := inactive)
      simp only [Bool.and_false] at hinactive
      exact (reflagged_setVisible loaded).ite.trans (hinactive _)
    generalize harmed : (if war then placed.setAtWar true
      else if has placed.Flags FACTION_FLAG_VISIBLE then placed.setAtWar false
      else placed)=armed
    have harm : Reflagged loaded armed (visible && loaded.comesUp) := by
      rw [←harmed]
      split
      · exact hplace.trans (reflagged_setAtWar placed true)
      · split
        · exact hplace.trans (reflagged_setAtWar placed false)
        · exact hplace
    generalize hhostile : (if (reputationToRank
      (getBaseReputation w entry+row.standing)).value ≤ ReputationRank.hostile.value then
      armed.setAtWar true else armed)=hostile
    have hchange : Reflagged loaded hostile (visible && loaded.comesUp) := by
      rw [←hhostile]
      split
      · exact harm.trans (reflagged_setAtWar armed true)
      · exact harm
    have hsameID : hostile.ID=state.ID := hchange.id.trans hmoved.1
    have hlist : hostile.ReputationListID=state.ReputationListID :=
      hchange.listID.trans hmoved.2.1
    have hrank : rankOf w state=reputationToRank (getBaseReputation w entry) := by
      unfold rankOf
      rw [hbase,hstart]
      exact congrArg reputationToRank (Int32.add_zero _)
    have hrank' : rankOf w hostile=
        reputationToRank (getBaseReputation w entry+row.standing) := by
      unfold rankOf
      rw [hchange.standing,hmoved.2.2,←hbase]
      unfold baseOf
      rw [hsameID]
    have hlookup : lookup FactionState.ReputationListID hostile.ReputationListID s.factions=
        some state := by
      rw [hlist,key_of_lookup hf]
      exact hf
    have hwrite := h.write hlookup hsameID (hflags ▸ hchange.proper) (hflags ▸ hchange.seen)
      fun hup => hflags ▸ not_visible_of_comesUp (Bool.and_eq_true_iff.mp hup).2
    rw [hrank,hrank'] at hwrite
    have hcount : (if visible then countVisible s.visibleFactionCount loaded
        else s.visibleFactionCount)=
        if visible && loaded.comesUp then s.visibleFactionCount+1
        else s.visibleFactionCount := by
      cases visible <;> rfl
    rw [hcount]
    refine ⟨hwrite,fun other hother => ?_⟩
    rcases mem_of_mem_replace hother with rfl | hold
    · exact Or.inr (hsameID.trans (hentryOf.id.trans hid))
    · exact Or.inl hold
  · exact hsame

theorem counted_loadFromDB (w : World) (rows : SavedRows) : Counted w (loadFromDB w rows) := by
  have hfold : ∀ (rows : List SavedRow) (s : ReputationMgr),Counted w s →
      (rows.map SavedRow.faction).Nodup →
      (∀ row∈rows,∀ faction∈s.factions,faction.ID=row.faction.toUInt32 → faction.Standing=0) →
      Counted w (rows.foldl (loadRow w) s) := by
    intro rows
    induction rows with
    | nil => exact fun s h _ _ => h
    | cons row rows ih =>
      intro s h hnodup hzero
      obtain ⟨hfirst,hrest⟩ := List.nodup_cons.mp hnodup
      obtain ⟨hcounted,hfrom⟩ := counted_loadRow h (hzero row List.mem_cons_self)
      refine ih _ hcounted hrest fun other hother faction hfaction hid => ?_
      rcases hfrom faction hfaction with hold | hloaded
      · exact hzero other (List.mem_cons_of_mem _ hother) faction hold hid
      · refine absurd (List.mem_map.mpr ⟨other,hother,?_⟩) hfirst
        exact UInt16.toUInt32_inj.mp (hid.symm.trans hloaded)
  obtain ⟨hcounted,hzero⟩ := counted_initializeFactions w
  exact hfold rows.1 _ hcounted rows.2 fun _ _ faction hfaction _ => hzero faction hfaction

end Loading

/-- In every run after the reputation has been loaded, the counters are what a recount of
the factions gives, the forced flags hold, and each standing is between the bottom and the
cap or as it was loaded. -/
theorem reputation_bookkeeping (w : World) (rows : SavedRows) (ops : List Op) :
    Counted w (run (step w) (loadFromDB w rows) ops) ∧
      Kept w (loadFromDB w rows) (run (step w) (loadFromDB w rows) ops) := by
  have hrun : Counted w (run (step w) (loadFromDB w rows) ops) ∧
      Kept w (loadFromDB w rows) (run (step w) (loadFromDB w rows) ops) := by
    refine run_invariant_always
      (I := fun s => Counted w s ∧ Kept w (loadFromDB w rows) s) (fun s op h => ?_)
      ⟨counted_loadFromDB w rows,Kept.refl w _⟩ ops
    obtain ⟨hcounted,hkept⟩ := advances_step s op h.1
    exact ⟨hcounted,h.2.trans hkept⟩
  exact hrun

/-- A store with one faction: a special one that is forced to be invisible. -/
def specialFaction : World :=
  { factionStore :=
      [{ ID := 1
         reputationListID := 0
         base := fun _ => { raceMask := 1, classMask := 0, value := 0, flags := 0x88 }
         team := 0
         spilloverRateIn := 0
         spilloverRateOut := 0
         spilloverMaxRankIn := 0 }]
    ids := by decide
    listIDs := by decide
    raceMask := 1
    classMask := 1
    rate := 1
    spilloverTemplate := fun _ => none
    onReputationChange := fun _ standing _ => standing }

/-- A special faction becomes visible against the flag that forces it to be invisible. -/
theorem special_becomes_visible :
    (loadFromDB specialFaction ⟨[],List.nodup_nil⟩).factions.map FactionState.Flags=
      [FACTION_FLAG_INVISIBLE_FORCED ||| FACTION_FLAG_SPECIAL] ∧
    (run (step specialFaction) (loadFromDB specialFaction ⟨[],List.nodup_nil⟩)
      [.setOneFactionReputation 1 100 false]).factions.map FactionState.Flags=
      [FACTION_FLAG_VISIBLE ||| FACTION_FLAG_INVISIBLE_FORCED ||| FACTION_FLAG_SPECIAL] :=
  ⟨by decide,by decide⟩

end Projectnelth.ReputationModel
