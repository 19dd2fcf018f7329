import Mathlib
import Projectnelth.MotionMasterOwnership

/-!
# Runs of a motion master

Each operation is right as far as its first callback, and so is what is left of it when the
callback has returned. What the callbacks must keep away from is said in one condition: a slot
that is being refilled, and an Update that is still running.
-/

namespace Projectnelth.MotionMasterModel

open MotionMaster

/-- What an operation ends with: no fault, and nothing left in hand. -/
def Lawful (r : Except Fault MotionMaster) : Prop := ∃ mm, r=.ok mm ∧ Inv [] mm

/-- The generator in a slot does not run its Update below another one. -/
def NotRunning (mm : MotionMaster) (slot : MovementSlot) : Prop :=
  ∀ g∈mm.impl slot, isStatic g=false → g∈updating mm.stack → mm.top=slot.val

/-- A slot may be given a new generator. -/
def MutateOk (mm : MotionMaster) (slot : MovementSlot) : Prop :=
  slot∉refilling mm.stack ∧ NotRunning mm slot

/-- An operation may be called. -/
def CallOk (mm : MotionMaster) : Op → Prop
  | .initial => mm.top < 0
  | .move slot => MutateOk mm slot
  | .moveIdle => mm.topGen=.ok (some .idle) ∨ MutateOk mm MOTION_SLOT_IDLE
  | .clear reset =>
    refilling mm.stack=[] ∨
      (mm.top=0 ∧ (mm.updateFlag=true ∨ (mm.needInit 0=false ∧ reset=false)))
  | .movementExpired _ => TopThere mm.top mm.stack ∧ PopOk mm
  | .updateMotion stopped => stopped=true ∨ (TopThere mm.top mm.stack ∧ NoUpdate mm.stack)

/-- The condition under which a generator has one owner. -/
def Cond (mm : MotionMaster) : Action → Prop
  | .call op => outside mm.stack=true → CallOk mm op
  | .leave _ => True
  | .go =>
    match mm.stack with
    | .update _::_ => mm.result=false → PopOk mm
    | _ => True

instance (top : ℤ) (fs : List Frame) : Decidable (TopThere top fs) :=
  inferInstanceAs (Decidable (∀ s∈refilling fs, (s.val : ℤ)≠top))

instance (fs : List Frame) : Decidable (NoUpdate fs) :=
  inferInstanceAs (Decidable (∀ f∈fs, f.updating=none ∧ f.position=none))

instance (mm : MotionMaster) : Decidable (PopOk mm) :=
  inferInstanceAs (Decidable (∀ s∈refilling mm.stack, (s.val : ℤ) < mm.top →
    ∃ s' : MovementSlot, s < s' ∧ (s'.val : ℤ) < mm.top ∧ mm.impl s'≠none))

instance (mm : MotionMaster) (slot : MovementSlot) : Decidable (MutateOk mm slot) :=
  inferInstanceAs (Decidable (slot∉refilling mm.stack ∧
    ∀ g∈mm.impl slot, isStatic g=false → g∈updating mm.stack → mm.top=slot.val))

instance (e : Except Fault (Option MovementGenerator)) (o : Option MovementGenerator) :
    Decidable (e=.ok o) :=
  match e with
  | .ok o' => decidable_of_iff (o'=o) ⟨congrArg _,Except.ok.inj⟩
  | .error _ => isFalse (by rintro ⟨⟩)

instance (mm : MotionMaster) : (op : Op) → Decidable (CallOk mm op)
  | .initial => inferInstanceAs (Decidable (mm.top < 0))
  | .move slot => inferInstanceAs (Decidable (MutateOk mm slot))
  | .moveIdle =>
    inferInstanceAs (Decidable (mm.topGen=.ok (some .idle) ∨ MutateOk mm MOTION_SLOT_IDLE))
  | .clear reset =>
    inferInstanceAs (Decidable (refilling mm.stack=[] ∨
      (mm.top=0 ∧ (mm.updateFlag=true ∨ (mm.needInit 0=false ∧ reset=false)))))
  | .movementExpired _ => inferInstanceAs (Decidable (TopThere mm.top mm.stack ∧ PopOk mm))
  | .updateMotion stopped =>
    inferInstanceAs (Decidable
      (stopped=true ∨ (TopThere mm.top mm.stack ∧ NoUpdate mm.stack)))

instance (mm : MotionMaster) : (a : Action) → Decidable (Cond mm a)
  | .call op => inferInstanceAs (Decidable (outside mm.stack=true → CallOk mm op))
  | .leave _ => isTrue trivial
  | .go =>
    match h : mm.stack with
    | .update g::rest =>
      decidable_of_iff (mm.result=false → PopOk mm) (by simp only [Cond,h])
    | [] => isTrue (by simp only [Cond,h])
    | .callback _ _::_ | .initLoop::_ | .mutate _ _::_ | .directClean _::_ | .directExpire _::_
    | .initTop::_ | .expire::_ | .expList _::_ | .resetFlag::_ =>
      isTrue (by simp only [Cond,h])

section Parts

variable {mm : MotionMaster}

theorem Inv.settle (h : Inv [] mm) (hthere : TopThere mm.top mm.stack) (reset : Bool) :
    Lawful (do
      if ←mm.needInitTop then mm.initTop
      else if reset then mm.resetTop
      else return mm) := by
  obtain ⟨b,hb⟩ := h.needInitTop
  rw [hb]
  cases b with
  | true => exact h.initTop hthere
  | false =>
    cases reset with
    | true => exact h.resetTop hthere
    | false => exact ⟨mm,rfl,h⟩

/-- A Mutate is right as far as its callback. -/
theorem Inv.mutate {m : MovementGenerator} (h : Inv [m] mm) {slot : MovementSlot}
    (hok : MutateOk mm slot) : Lawful (mm.mutate m slot) := by
  have hclaim := h.claim hok.1
  unfold MotionMaster.mutate
  cases hslot : mm.impl slot with
  | none =>
    have hsame : Function.update mm.impl slot none=mm.impl := by
      rw [← hslot,Function.update_eq_self]
    rw [hslot,hsame] at hclaim
    exact ⟨_,rfl,hclaim⟩
  | some curr =>
    obtain ⟨t,ht,-,habove⟩ := h.top
    have hle : (slot.val : ℤ) ≤ mm.top := by
      rw [ht]
      refine Int.ofNat_le.mpr (Nat.le_of_not_lt fun hlt => ?_)
      exact Option.some_ne_none curr (hslot.symm.trans (habove slot hlt).1)
    rw [hslot,max_eq_left hle] at hclaim
    dsimp only
    split_ifs with hdelayed
    · have hupdating := h.flag.mp hdelayed.2
      obtain ⟨mm',hmm',hinv,-⟩ :=
        hclaim.delayedDelete (h.frames.position_of_updating hupdating)
      exact ⟨mm',hmm',hinv⟩
    · refine hclaim.directDelete fun hcurr hupdating => hdelayed ⟨?_,?_⟩
      · exact hok.2 curr hslot hcurr hupdating
      · exact h.flag.mpr (List.ne_nil_of_mem hupdating)

/-- A Move call with a new generator. -/
theorem Inv.move (h : Inv [] mm) {slot : MovementSlot} (hok : MutateOk mm slot) :
    Lawful (mm.move slot) :=
  h.create.mutate hok

/-- The generator of the idle slot is nobody's. -/
theorem Inv.idle_in_hand (h : Inv [] mm) : Inv [.idle] mm := h.in_hand fun _ => rfl

/-- `MoveIdle`. -/
theorem Inv.moveIdle (h : Inv [] mm)
    (hok : mm.topGen=.ok (some .idle) ∨ MutateOk mm MOTION_SLOT_IDLE) : Lawful mm.moveIdle := by
  obtain ⟨t,-,hslot⟩ := h.slotAt_top
  have htop : mm.topGen=.ok (mm.impl t) := by
    rw [topGen,hslot]
    rfl
  unfold MotionMaster.moveIdle
  rw [h.not_empty,htop]
  show Lawful (if mm.impl t=some .idle then .ok mm else mm.mutate .idle MOTION_SLOT_IDLE)
  split_ifs with hidle
  · exact ⟨mm,rfl,h⟩
  · rcases hok with hok | hok
    · rw [htop] at hok
      exact absurd (Except.ok.inj hok) hidle
    · exact h.idle_in_hand.mutate hok

/-- `DirectClean`. -/
theorem Inv.directClean (h : Inv [] mm) (hrefill : refilling mm.stack=[])
    (hupdate : updating mm.stack=[]) (reset : Bool) : Lawful (mm.directClean reset) := by
  have hthere : TopThere mm.top mm.stack := by
    rw [TopThere,hrefill]
    rintro _ ⟨⟩
  unfold MotionMaster.directClean
  by_cases hsize : 1 < mm.size
  · rw [if_pos hsize]
    have hpop : PopOk mm := by
      rw [PopOk,hrefill]
      rintro _ ⟨⟩
    obtain ⟨c,mm',htop,hmm',hinv,-,hstack,-⟩ := h.pop hsize hthere hpop
    rw [htop,hmm']
    have hpush := hinv.push (f := .directClean reset) rfl
      (by rw [hstack]; exact ⟨hrefill,hupdate⟩)
    refine hpush.directDelete fun _ hmem => ?_
    have hnone : updating (.directClean reset::mm'.stack)=[] := by
      rw [hstack]
      exact hupdate
    exact List.not_mem_nil (hnone ▸ hmem)
  · rw [if_neg hsize]
    exact h.settle hthere reset

/-- `DelayedClean`: with a turn for each slot it leaves the idle slot alone. -/
theorem Inv.delayedClean {n : ℕ} (h : Inv [] mm) (hrefill : refilling mm.stack=[])
    (hpos : position mm.stack=0) (hn : mm.size.toNat ≤ n+1) :
    ∃ mm', mm.delayedClean n=.ok mm' ∧ Inv [] mm' ∧ mm'.size ≤ 1 := by
  induction n generalizing mm with
  | zero =>
    refine ⟨mm,rfl,h,?_⟩
    omega
  | succ n ih =>
    unfold MotionMaster.delayedClean
    split_ifs with hsize
    · have hthere : TopThere mm.top mm.stack := by
        rw [TopThere,hrefill]
        rintro _ ⟨⟩
      have hpop : PopOk mm := by
        rw [PopOk,hrefill]
        rintro _ ⟨⟩
      obtain ⟨c,mm₁,htop,hmm₁,hinv₁,-,hstack₁,hlt⟩ := h.pop hsize hthere hpop
      obtain ⟨mm₂,hmm₂,hinv₂,htop₂,-,hstack₂⟩ :=
        hinv₁.delayedDelete (by rw [hstack₁]; exact hpos)
      rw [htop,hmm₁]
      show ∃ mm', (mm₁.delayedDelete (some c) >>= fun mm => mm.delayedClean n)=.ok mm' ∧ _
      rw [hmm₂]
      have hstack : mm₂.stack=mm.stack := hstack₂.trans hstack₁
      refine ih hinv₂ (by rw [hstack]; exact hrefill) (by rw [hstack]; exact hpos) ?_
      unfold MotionMaster.size at hn ⊢
      rw [htop₂]
      omega
    · exact ⟨mm,rfl,h,not_lt.mp hsize⟩

/-- `Clear`. -/
theorem Inv.clear (h : Inv [] mm) {reset : Bool}
    (hok : refilling mm.stack=[] ∨
      (mm.top=0 ∧ (mm.updateFlag=true ∨ (mm.needInit 0=false ∧ reset=false)))) :
    Lawful (mm.clear reset) := by
  unfold MotionMaster.clear
  split_ifs with hflag
  · have hpos := h.frames.position_of_updating (h.flag.mp hflag)
    rcases hok with hrefill | ⟨htop,-⟩
    · obtain ⟨mm',hmm',hinv,-⟩ :=
        (h.adjust mm.needInit reset mm.result).delayedClean hrefill hpos (Nat.le_succ _)
      exact ⟨mm',hmm',hinv⟩
    · have hsize : mm.size=1 := by rw [size,htop]; rfl
      refine ⟨_,?_,h.adjust mm.needInit reset mm.result⟩
      rw [hsize]
      show (if 1 < mm.size then _ else _)=_
      rw [if_neg (by rw [hsize]; exact lt_irrefl _)]
      rfl
  · have hnone : updating mm.stack=[] := by
      by_contra hne
      exact hflag (h.flag.mpr hne)
    rcases hok with hrefill | ⟨htop,hok⟩
    · exact h.directClean hrefill hnone reset
    obtain ⟨hinit,rfl⟩ := hok.resolve_left hflag
    have hneed : mm.needInitTop=.ok false := by
      rw [MotionMaster.needInitTop,htop,← hinit]
      rfl
    unfold MotionMaster.directClean
    rw [if_neg (by rw [size,htop]; exact lt_irrefl _),hneed]
    exact ⟨mm,rfl,h⟩

/-- `while (!top()) --_top` ends at once where the top slot is in use. -/
theorem Inv.descend_top {hand : List MovementGenerator} (h : Inv hand mm)
    (hthere : TopThere mm.top mm.stack) : mm.descend mm.size.toNat=.ok mm := by
  obtain ⟨t,c,ht,hc,-⟩ := h.top_used hthere
  have hsize : mm.size.toNat=t.val+1 := by
    unfold MotionMaster.size
    omega
  rw [hsize]
  unfold MotionMaster.descend
  rw [dif_pos t.isLt,hc,Option.isSome_some,if_pos rfl,← ht]

/-- `DirectExpire`. -/
theorem Inv.directExpire (h : Inv [] mm) (hthere : TopThere mm.top mm.stack) (hpop : PopOk mm)
    (hupdate : updating mm.stack=[]) (reset : Bool) : Lawful (mm.directExpire reset) := by
  unfold MotionMaster.directExpire
  split_ifs with hsize
  · obtain ⟨c,mm',htop,hmm',hinv,hthere',hstack,-⟩ := h.pop hsize hthere hpop
    rw [htop,hmm']
    have hpush := hinv.push (f := .directExpire reset) rfl hthere'
    refine hpush.directDelete fun _ hmem => ?_
    have hnone : updating (.directExpire reset::mm'.stack)=[] := by
      rw [hstack]
      exact hupdate
    exact List.not_mem_nil (hnone ▸ hmem)
  · exact ⟨_,rfl,h.push (f := .directExpire reset) rfl hthere⟩

/-- `DirectExpire`, after its `DirectDelete`. -/
theorem Inv.directExpireEnd (h : Inv [] mm) (hthere : TopThere mm.top mm.stack) (reset : Bool) :
    Lawful (mm.directExpireEnd reset) := by
  unfold MotionMaster.directExpireEnd
  rw [h.descend_top hthere]
  show Lawful (if mm.empty=true then _ else _)
  rw [h.not_empty]
  exact h.settle hthere reset

/-- `DelayedExpire`. -/
theorem Inv.delayedExpire (h : Inv [] mm) (hthere : TopThere mm.top mm.stack) (hpop : PopOk mm)
    (hpos : position mm.stack=0) : Lawful mm.delayedExpire := by
  unfold MotionMaster.delayedExpire
  split_ifs with hsize
  · obtain ⟨c,mm₁,htop,hmm₁,hinv₁,hthere₁,hstack₁,-⟩ := h.pop hsize hthere hpop
    obtain ⟨mm₂,hmm₂,hinv₂,htop₂,-,hstack₂⟩ :=
      hinv₁.delayedDelete (by rw [hstack₁]; exact hpos)
    rw [htop,hmm₁]
    show Lawful (mm₁.delayedDelete (some c) >>= fun mm => mm.descend mm.size.toNat)
    rw [hmm₂]
    exact ⟨mm₂,hinv₂.descend_top (by rw [htop₂,hstack₂]; exact hthere₁),hinv₂⟩
  · exact ⟨mm,h.descend_top hthere,h⟩

/-- `MovementExpired`. -/
theorem Inv.movementExpired (h : Inv [] mm) (hthere : TopThere mm.top mm.stack)
    (hpop : PopOk mm) (reset : Bool) : Lawful (mm.movementExpired reset) := by
  unfold MotionMaster.movementExpired
  split_ifs with hflag
  · exact (h.adjust mm.needInit reset mm.result).delayedExpire hthere hpop
      (h.frames.position_of_updating (h.flag.mp hflag))
  · refine h.directExpire hthere hpop ?_ reset
    by_contra hne
    exact hflag (h.flag.mpr hne)

theorem Inv.not_finalized (h : Inv [] mm) {s : MovementSlot} {n : ℕ}
    (hs : mm.impl s=some (.created n)) : .created n∉mm.finalized := by
  intro hmem
  have howned := h.owned n
  have hcount : 1 ≤ slotCount mm.impl (.created n) := by
    have hheld : held (mm.impl s) (.created n)=1 := if_pos hs
    unfold slotCount
    match s with
    | 0 => omega
    | 1 => omega
    | 2 => omega
  have hfin := List.count_pos_iff.mpr hmem
  rw [places] at howned
  split_ifs at howned <;> omega

/-- `UpdateMotion`, up to the `Update`. -/
theorem Inv.updateMotion (h : Inv [] mm) {stopped : Bool}
    (hok : stopped=true ∨ (TopThere mm.top mm.stack ∧ NoUpdate mm.stack)) :
    Lawful (mm.updateMotion stopped) := by
  unfold MotionMaster.updateMotion
  cases stopped with
  | true => exact ⟨mm,rfl,h⟩
  | false =>
    obtain ⟨hthere,hno⟩ := hok.resolve_left Bool.false_ne_true
    obtain ⟨t,g,hg,-,hpointer⟩ := h.topPointer hthere
    rw [h.not_empty]
    show Lawful (mm.topPointer >>= fun g =>
      .ok (({ mm with updateFlag := true }.push (.update g)).push (.callback .update g)))
    rw [hpointer]
    refine ⟨_,rfl,h.fault,h.top,h.idle,h.empty,h.nodup,⟨trivial,⟨hthere,hno⟩,h.frames⟩,?_,
      fun n hn => ?_,h.owned,h.deleted,h.listed⟩
    · exact iff_of_true rfl (List.cons_ne_nil g _)
    · rcases List.mem_cons.mp hn with he | hn
      · exact h.not_finalized (hg.trans (congrArg some he.symm))
      · exact h.running n hn

end Parts

section Turns

variable {mm : MotionMaster} {rest : List Frame}

theorem Inv.fill {m : MovementGenerator} {slot : MovementSlot} (h : Inv [] mm)
    (hs : mm.stack=.mutate m slot::rest) :
    Inv [] { mm with stack := rest, impl := Function.update mm.impl slot (some m) } := by
  have hrefill : refilling mm.stack=slot::refilling rest := by rw [hs]; rfl
  have hself : Function.update mm.impl slot (some m) slot=some m := Function.update_self ..
  have hother : ∀ s, s≠slot → Function.update mm.impl slot (some m) s=mm.impl s :=
    fun s hs => Function.update_of_ne hs _ _
  have hused : ∀ s, mm.impl s≠none ∨ s∈refilling mm.stack →
      Function.update mm.impl slot (some m) s≠none ∨ s∈refilling rest := by
    intro s hor
    by_cases he : s=slot
    · subst he
      exact .inl (by rw [hself]; exact Option.some_ne_none m)
    rw [hother s he]
    refine hor.imp id fun hmem => ?_
    rw [hrefill] at hmem
    exact (List.mem_cons.mp hmem).resolve_left he
  have hnodup := h.nodup
  rw [hrefill,List.nodup_cons] at hnodup
  have hframes := h.frames
  rw [hs] at hframes
  obtain ⟨t,ht,htused,habove⟩ := h.top
  refine ⟨h.fault,⟨t,ht,hused t htused,fun s hst => ?_⟩,hused 0 h.idle,fun s hmem => ?_,
    hnodup.2,hframes.2,?_,?_,fun n => ?_,?_,?_⟩
  · obtain ⟨hnone,hnot⟩ := habove s hst
    rw [hrefill,List.mem_cons,not_or] at hnot
    exact ⟨(hother s hnot.1).trans hnone,hnot.2⟩
  · have hne : s≠slot := fun he => hnodup.1 (he ▸ hmem)
    exact (hother s hne).trans (h.empty s (by rw [hrefill]; exact List.mem_cons_of_mem _ hmem))
  · have hflag := h.flag
    rw [hs] at hflag
    exact hflag
  · have hrunning := h.running
    rw [hs] at hrunning
    exact hrunning
  · have hcount := @slotCount_update mm.impl slot (some m) (.created n)
    have howned := h.owned n
    rw [h.empty slot (by rw [hrefill]; exact List.mem_cons_self),held_none,held_some] at hcount
    rw [List.count_nil,Nat.zero_add,places,expiring,hs] at howned
    rw [List.count_nil,Nat.zero_add]
    show slotCount (Function.update mm.impl slot (some m)) (.created n)+
      ((mm.expList.getD []).drop (position rest)).count (.created n)+
      (waiting rest).count (.created n)+mm.finalized.count (.created n)=
      if n < mm.generators then 1 else 0
    rw [← howned]
    show _=_+((mm.expList.getD []).drop (position rest)).count (.created n)+
      (m::waiting rest).count (.created n)+_
    simp only [List.count_cons,List.count_nil] at hcount ⊢
    omega
  · have hdeleted := h.deleted
    rw [hs] at hdeleted
    exact hdeleted
  · have hlisted := h.listed
    rw [hs] at hlisted
    exact hlisted

/-- `Mutate`, once the slot is empty. -/
theorem Inv.mutateSlot {m : MovementGenerator} {slot : MovementSlot} (h : Inv [] mm)
    (hs : mm.stack=.mutate m slot::rest) :
    Inv [] ({ mm with stack := rest }.mutateSlot m slot) := by
  have hfill := h.fill hs
  unfold MotionMaster.mutateSlot
  dsimp only
  split_ifs with hlt
  · exact hfill.adjust (Function.update mm.needInit slot true) mm.resetFlag mm.result
  · exact (hfill.adjust (Function.update mm.needInit slot false) mm.resetFlag mm.result).push
      (f := .callback .initial m) rfl trivial

/-- What holds, said of the frame that goes on and of those below it. -/
theorem Inv.framed {f : Frame} (h : Inv [] mm) (hs : mm.stack=f::rest) :
    Inv [] { mm with stack := f::rest } := by
  rw [← hs]
  exact h

/-- `UpdateMotion`, after the `Update`. -/
theorem Inv.updateMotionEnd {g : MovementGenerator} (h : Inv [] mm)
    (hs : mm.stack=.update g::rest) (hok : mm.result=false → PopOk mm) :
    Lawful ({ mm with stack := rest }.updateMotionEnd) := by
  have hf := h.framed hs
  obtain ⟨⟨hthere,hno⟩,hrest⟩ := hf.frames
  have hinv : Inv [] ({ mm with stack := rest, updateFlag := false }.push .expire) := by
    refine ⟨h.fault,hf.top,hf.idle,hf.empty,hf.nodup,⟨⟨hthere,hno⟩,hrest⟩,?_,fun n hn => ?_,
      hf.owned,hf.deleted,hf.listed⟩
    · exact iff_of_false Bool.false_ne_true fun hne => hne hno.updating
    · have hmem : MovementGenerator.created n∈updating rest := hn
      rw [hno.updating] at hmem
      exact absurd hmem List.not_mem_nil
  unfold MotionMaster.updateMotionEnd
  dsimp only
  split_ifs with hresult
  · exact ⟨_,rfl,hinv⟩
  refine hinv.movementExpired hthere ?_ true
  have hpop := hok (Bool.not_eq_true _ ▸ hresult)
  unfold PopOk at hpop ⊢
  rw [hs] at hpop
  exact hpop

/-- `UpdateMotion`, in its loop over `_expList` and after it. -/
theorem Inv.deleteExpired {i : ℕ} (h : Inv [] mm) (hs : mm.stack=.expList i::rest) :
    Lawful ({ mm with stack := rest }.deleteExpired i) := by
  have hf := h.framed hs
  obtain ⟨⟨hthere,hno⟩,hrest⟩ := hf.frames
  obtain ⟨expired,hexpired⟩ := Option.isSome_iff_exists.mp (hf.listed rfl)
  have howned := hf.owned
  unfold places expiring at howned
  dsimp only at hexpired howned
  rw [hexpired,Option.getD_some] at howned
  unfold MotionMaster.deleteExpired
  dsimp only
  rw [hexpired]
  dsimp only
  by_cases hi : i < expired.length
  · rw [dif_pos hi]
    have hdrop : expired.drop i=expired.get ⟨i,hi⟩::expired.drop (i+1) :=
      List.drop_eq_getElem_cons hi
    have hinv : Inv [expired.get ⟨i,hi⟩]
        ({ mm with stack := rest, expList := some expired }.push (.expList (i+1))) := by
      refine ⟨h.fault,hf.top,hf.idle,hf.empty,hf.nodup,⟨⟨hthere,hno⟩,hrest⟩,hf.flag,hf.running,
        fun n => ?_,hf.deleted,fun _ => rfl⟩
      refine Eq.trans ?_ (howned n)
      show _+(slotCount mm.impl (.created n)+(expired.drop (i+1)).count (.created n)+
        (waiting rest).count (.created n)+mm.finalized.count (.created n))=
        _+(slotCount mm.impl (.created n)+(expired.drop i).count (.created n)+
        (waiting rest).count (.created n)+mm.finalized.count (.created n))
      rw [hdrop]
      simp only [List.count_cons,List.count_nil]
      omega
    refine hinv.directDelete fun _ hmem => ?_
    have hnone : updating (.expList (i+1)::rest)=[] := hno.updating
    exact List.not_mem_nil (hnone ▸ hmem)
  · rw [dif_neg hi]
    have hdrop : expired.drop i=[] := List.drop_eq_nil_of_le (not_lt.mp hi)
    have hnot : ¬looping rest=true := by
      rw [hno.looping]
      exact Bool.false_ne_true
    have hinv : Inv [] ({ mm with stack := rest, expList := none }.push .resetFlag) := by
      refine ⟨h.fault,hf.top,hf.idle,hf.empty,hf.nodup,⟨trivial,hrest⟩,hf.flag,hf.running,
        fun n => ?_,hf.deleted,fun hloop => absurd hloop hnot⟩
      refine Eq.trans ?_ (howned n)
      show 0+(_+(List.drop _ []).count (MovementGenerator.created n)+_+_)=
        0+(_+(expired.drop i).count (.created n)+_+_)
      rw [hdrop,List.drop_nil]
      rfl
    rw [hinv.not_empty]
    exact hinv.settle hthere mm.resetFlag

/-- What is left of a function is right as far as its next callback. -/
theorem Inv.go {f : Frame} (h : Inv [] mm) (hs : mm.stack=f::rest) (hout : outside (f::rest)=false)
    (hok : Cond mm .go) :
    Lawful ({ mm with stack := rest }.resume f) := by
  have hframes := h.frames
  rw [hs] at hframes
  obtain ⟨hframe,hrest⟩ := hframes
  cases f with
  | callback c g => exact absurd hout (by rintro ⟨⟩)
  | initLoop => exact hframe.elim
  | mutate m slot => exact ⟨_,rfl,h.mutateSlot hs⟩
  | directClean reset => exact (h.resume hs rfl).directClean hframe.1 hframe.2 reset
  | directExpire reset => exact (h.resume hs rfl).directExpireEnd hframe reset
  | initTop =>
    obtain ⟨t,-,hslot⟩ := h.slotAt_top
    refine ⟨_,?_,(h.resume hs rfl).adjust (Function.update mm.needInit t false) mm.resetFlag
      mm.result⟩
    show (slotAt mm.top >>= _)=_
    rw [hslot]
    rfl
  | update g =>
    unfold Cond at hok
    rw [hs] at hok
    exact h.updateMotionEnd hs hok
  | expire =>
    have hinv := h.resume hs rfl
    show Lawful (if mm.expList.isSome=true then _ else _)
    split_ifs with hlist
    · refine ⟨_,rfl,?_⟩
      exact @Inv.restack _ _ h (.expList 0::rest) (by
        rw [hs]
        exact ⟨rfl,rfl,rfl,hframe.2.position.symm,rfl⟩) ⟨hframe,hrest⟩ fun _ => hlist
    · exact ⟨_,rfl,hinv⟩
  | expList i => exact h.deleteExpired hs
  | resetFlag => exact ⟨_,rfl,(h.resume hs rfl).adjust mm.needInit false mm.result⟩

theorem Inv.leave {c : Callback} {g : MovementGenerator} (h : Inv [] mm)
    (hs : mm.stack=.callback c g::rest) (b : Bool) :
    Inv [] ({ mm with stack := rest }.leave b c g) := by
  cases c with
  | initial => exact h.resume hs rfl
  | reset => exact h.resume hs rfl
  | update => exact (h.resume hs rfl).adjust mm.needInit mm.resetFlag b
  | finalize =>
    have hf := h.framed hs
    refine ⟨h.fault,hf.top,hf.idle,hf.empty,hf.nodup,hf.frames.2,hf.flag,hf.running,hf.owned,
      fun g' => ?_,hf.listed⟩
    have hg := hf.deleted g'
    dsimp only at hg
    have hfin : finalizing (.callback .finalize g::rest)=g::finalizing rest := rfl
    rw [hfin,List.count_cons] at hg
    show (g::mm.deleted).count g'+(finalizing rest).count g'=mm.finalized.count g'
    rw [List.count_cons]
    omega

end Turns

section Runs

variable {mm : MotionMaster}

/-- An operation that may be called is right as far as its first callback. -/
theorem Inv.call (h : Inv [] mm) {op : Op} (hok : CallOk mm op) : Lawful (mm.call op) := by
  cases op with
  | initial =>
    obtain ⟨t,ht,-⟩ := h.top
    have hlt : mm.top < 0 := hok
    omega
  | move slot => exact h.move hok
  | moveIdle => exact h.moveIdle hok
  | clear reset => exact h.clear hok
  | movementExpired reset => exact h.movementExpired hok.1 hok.2 reset
  | updateMotion stopped => exact h.updateMotion hok

/-- So is whatever happens next. -/
theorem Inv.act (h : Inv [] mm) {a : Action} (hok : Cond mm a) : Lawful (mm.act a) := by
  have hsame : Lawful (.ok mm) := ⟨mm,rfl,h⟩
  unfold MotionMaster.act
  cases a with
  | call op =>
    show Lawful (if outside mm.stack=true then _ else _)
    split_ifs with hout
    · exact h.call (hok hout)
    · exact hsame
  | leave b =>
    cases hs : mm.stack with
    | nil => exact hsame
    | cons f rest =>
      cases f with
      | callback c g => exact ⟨_,rfl,h.leave hs b⟩
      | _ => exact hsame
  | go =>
    cases hs : mm.stack with
    | nil => exact hsame
    | cons f rest =>
      have hgo := fun hout => h.go hs hout hok
      cases f with
      | callback c g => exact hsame
      | _ => exact hgo rfl

/-- A step whose action meets the condition keeps what holds. -/
theorem Inv.step {a : Action} (h : Inv [] mm) (hok : Cond mm a) :
    Inv [] (MotionMaster.step mm a) := by
  obtain ⟨mm',hmm',hinv⟩ := h.act hok
  unfold MotionMaster.step
  rw [if_neg (not_not.mpr h.fault),hmm']
  exact hinv

/-- The first `Initialize` gives the idle slot a generator. -/
theorem inv_initial (selects : Bool) :
    Inv [] ((MotionMaster.new selects).step (.call .initial)) := by
  cases selects with
  | false =>
    refine ⟨rfl,⟨0,rfl,.inr List.mem_cons_self,fun s hs => ⟨rfl,?_⟩⟩,.inr List.mem_cons_self,
      fun _ _ => rfl,List.nodup_singleton 0,⟨trivial,trivial⟩,?_,fun _ => by rintro ⟨⟩,
      fun n => ?_,fun _ => rfl,by rintro ⟨⟩⟩
    · exact fun hmem => hs.ne' (List.mem_singleton.mp hmem)
    · exact iff_of_false Bool.false_ne_true fun hne => hne rfl
    · rfl
  | true =>
    refine ⟨rfl,⟨0,rfl,.inr List.mem_cons_self,fun s hs => ⟨rfl,?_⟩⟩,.inr List.mem_cons_self,
      fun _ _ => rfl,List.nodup_singleton 0,⟨trivial,trivial⟩,?_,fun _ => by rintro ⟨⟩,
      fun n => ?_,fun _ => rfl,by rintro ⟨⟩⟩
    · exact fun hmem => hs.ne' (List.mem_singleton.mp hmem)
    · exact iff_of_false Bool.false_ne_true fun hne => hne rfl
    show 0+(0+0+[MovementGenerator.created 0].count (.created n)+0)=if n < 1 then 1 else 0
    by_cases hn : n=0
    · subst hn
      rfl
    · rw [List.count_eq_zero_of_not_mem (by simpa using hn),if_neg (by omega)]

/-- What a motion master promises: no fault; with no call in progress the idle slot is in use
and the top is the highest slot in use; each generator that was created is in one place (a
slot, the delayed deletes, the Mutate that is about to put it into its slot, or the
finalized ones); what was finalized is deleted once its Finalize returns; and what runs its
Update was not finalized. -/
def StackLaw (mm : MotionMaster) : Prop :=
  mm.fault=none ∧
    (mm.stack=[] → mm.impl MOTION_SLOT_IDLE≠none ∧
      ∃ t : MovementSlot, mm.top=t.val ∧ mm.impl t≠none ∧ ∀ s, t < s → mm.impl s=none) ∧
    (∀ n < mm.generators, mm.places (.created n)=1) ∧
    (∀ n, mm.deleted.count (.created n)+(finalizing mm.stack).count (.created n)=
      mm.finalized.count (.created n)) ∧
    ∀ n, .created n∈updating mm.stack → .created n∉mm.finalized

/-- What holds with nothing in hand is what is promised. -/
theorem Inv.law (h : Inv [] mm) : StackLaw mm := by
  refine ⟨h.fault,fun hs => ?_,fun n hn => ?_,fun n => h.deleted _,h.running⟩
  · have hnone : refilling mm.stack=[] := by rw [hs]; rfl
    obtain ⟨t,ht,hused,habove⟩ := h.top
    have hidle := h.idle
    rw [hnone] at hused hidle
    exact ⟨hidle.resolve_right List.not_mem_nil,t,ht,hused.resolve_right List.not_mem_nil,
      fun s hst => (habove s hst).1⟩
  · have howned := h.owned n
    rwa [List.count_nil,Nat.zero_add,if_pos hn] at howned

/-- Once initialized, a motion master keeps its promise along every run whose calls keep away
from the slots that are being refilled and from the Updates that still run. -/
theorem motion_stack_lawful (selects : Bool) (as : List Action)
    (h : RunInvariant.Meets MotionMaster.step Cond
      ((MotionMaster.new selects).step (.call .initial)) as) :
    StackLaw (RunInvariant.run MotionMaster.step
      ((MotionMaster.new selects).step (.call .initial)) as) :=
  (RunInvariant.run_invariant (fun _ _ hinv hok => Inv.step hinv hok)
    (inv_initial selects) h).law

/-- A movement expires in its Update, which has called for another one. -/
theorem motion_stack_lawful_expired :
    StackLaw (RunInvariant.run MotionMaster.step
      ((MotionMaster.new true).step (.call .initial))
      [.go,.leave true,.call (.move 2),.go,.leave true,.call (.updateMotion false),
        .call (.move 1),.go,.leave false,.go,.leave true,.go,.leave true,.go,.go]) :=
  motion_stack_lawful true _ (by decide)

/-- A second `Initialize` empties the idle slot and reads below the slots. A Move call for
the slot whose generator a Mutate finalizes is overwritten when that Mutate goes on. -/
theorem initialize_twice_and_refill :
    ¬StackLaw (RunInvariant.run MotionMaster.step
        ((MotionMaster.new false).step (.call .initial)) [.go,.leave true,.call .initial]) ∧
      ¬StackLaw (RunInvariant.run MotionMaster.step
        ((MotionMaster.new false).step (.call .initial))
        [.go,.leave true,.call (.move 2),.go,.leave true,.call (.move 2),.call (.move 2),.go,
          .leave true,.leave true,.go]) := by
  refine ⟨fun h => absurd h.1 (by decide),fun h => ?_⟩
  have hplaces := h.2.2.1 2 (by decide)
  revert hplaces
  decide

end Runs

end Projectnelth.MotionMasterModel
