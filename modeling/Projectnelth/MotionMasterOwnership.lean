import Mathlib
import Projectnelth.MotionMasterModel
import Projectnelth.RunInvariant

/-!
# Who owns a movement generator

A generator is in a slot, waits in a Mutate that empties its slot, is in the list of delayed
deletes, or was finalized. Between two turns of the calls in progress one of them holds it,
so the law is stated with the generators in hand. A slot that a Mutate will fill counts as in
use; what must not happen is that anything else comes to rest on it.
-/

namespace Projectnelth.MotionMasterModel

open MotionMaster

/-- The slot that a waiting Mutate will fill. -/
def Frame.slot : Frame → Option MovementSlot
  | .mutate _ slot => some slot
  | _ => none

/-- The generator that a waiting Mutate will put there. -/
def Frame.waiting : Frame → Option MovementGenerator
  | .mutate m _ => some m
  | _ => none

/-- The generator whose Finalize runs. -/
def Frame.finalizing : Frame → Option MovementGenerator
  | .callback .finalize g => some g
  | _ => none

/-- How far the loop over the delayed deletes has come. -/
def Frame.position : Frame → Option ℕ
  | .expList i => some i
  | _ => none

/-- The generator whose Update runs. -/
def Frame.updating : Frame → Option MovementGenerator
  | .update g => some g
  | _ => none

/-- A frame that says nothing of a generator or of a slot. -/
def Frame.plain (f : Frame) : Bool :=
  f.slot.isNone && f.waiting.isNone && f.finalizing.isNone && f.position.isNone &&
    f.updating.isNone

/-- The slots that are being refilled. -/
def refilling (fs : List Frame) : List MovementSlot := fs.filterMap Frame.slot

/-- The generators that wait for a slot. -/
def waiting (fs : List Frame) : List MovementGenerator := fs.filterMap Frame.waiting

/-- The generators whose Finalize runs. -/
def finalizing (fs : List Frame) : List MovementGenerator := fs.filterMap Frame.finalizing

/-- The generators whose Update runs. -/
def updating (fs : List Frame) : List MovementGenerator := fs.filterMap Frame.updating

/-- How many delayed deletes are done. -/
def position (fs : List Frame) : ℕ := (fs.findSome? Frame.position).getD 0

/-- A loop over the delayed deletes waits. -/
def looping (fs : List Frame) : Bool := fs.any fun f => f.position.isSome

/-- The delayed deletes that are still to do. -/
def MotionMaster.expiring (mm : MotionMaster) : List MovementGenerator :=
  (mm.expList.getD []).drop (position mm.stack)

/-- No Update runs, and no loop over the delayed deletes. -/
def NoUpdate (fs : List Frame) : Prop := ∀ f∈fs, f.updating=none ∧ f.position=none

/-- The top slot is not one that is being refilled. -/
def TopThere (top : ℤ) (fs : List Frame) : Prop := ∀ s∈refilling fs, (s.val : ℤ)≠top

/-- What holds of a waiting frame and those below it. -/
def FrameOk (top : ℤ) (rest : List Frame) : Frame → Prop
  | .initLoop => False
  | .directClean _ => refilling rest=[] ∧ updating rest=[]
  | .directExpire _ => TopThere top rest
  | .update _ | .expire | .expList _ => TopThere top rest ∧ NoUpdate rest
  | _ => True

/-- What holds of all the waiting frames. -/
def FramesOk (top : ℤ) : List Frame → Prop
  | [] => True
  | f::rest => FrameOk top rest f ∧ FramesOk top rest

/-- A generator is in a slot. -/
def held (o : Option MovementGenerator) (g : MovementGenerator) : ℕ := if o=some g then 1 else 0

/-- In how many slots a generator is. -/
def slotCount (impl : MovementSlot → Option MovementGenerator) (g : MovementGenerator) : ℕ :=
  held (impl 0) g+held (impl 1) g+held (impl 2) g

/-- In how many places a generator is. -/
def MotionMaster.places (mm : MotionMaster) (g : MovementGenerator) : ℕ :=
  slotCount mm.impl g+mm.expiring.count g+(waiting mm.stack).count g+mm.finalized.count g

/-- Each slot below the top that is being refilled has a slot in use above it and below the
top. -/
def PopOk (mm : MotionMaster) : Prop :=
  ∀ s∈refilling mm.stack, (s.val : ℤ) < mm.top →
    ∃ s' : MovementSlot, s < s' ∧ (s'.val : ℤ) < mm.top ∧ mm.impl s'≠none

/-- What holds while the calls in progress have some generators in hand. -/
structure Inv (hand : List MovementGenerator) (mm : MotionMaster) : Prop where
  fault : mm.fault=none
  top : ∃ t : MovementSlot, mm.top=t.val ∧ (mm.impl t≠none ∨ t∈refilling mm.stack) ∧
    ∀ s, t < s → mm.impl s=none ∧ s∉refilling mm.stack
  /-- The idle slot is in use. -/
  idle : mm.impl 0≠none ∨ 0∈refilling mm.stack
  empty : ∀ s∈refilling mm.stack, mm.impl s=none
  /-- A slot is refilled by one Mutate. -/
  nodup : (refilling mm.stack).Nodup
  /-- What waits fits together. -/
  frames : FramesOk mm.top mm.stack
  flag : mm.updateFlag=true ↔ updating mm.stack≠[]
  running : ∀ n, .created n∈updating mm.stack → .created n∉mm.finalized
  owned : ∀ n, hand.count (.created n)+mm.places (.created n)=if n < mm.generators then 1 else 0
  deleted : ∀ g, mm.deleted.count g+(finalizing mm.stack).count g=mm.finalized.count g
  /-- A loop over the delayed deletes has its list. -/
  listed : looping mm.stack=true → mm.expList.isSome=true

section Frames

variable {top : ℤ} {fs rest : List Frame} {f : Frame}

theorem Frame.plain_iff :
    f.plain=true ↔ f.slot=none ∧ f.waiting=none ∧ f.finalizing=none ∧ f.position=none ∧
      f.updating=none := by
  simp only [Frame.plain,Bool.and_eq_true,Option.isNone_iff_eq_none,and_assoc]

/-- A plain frame adds nothing to what is counted. -/
theorem plain_cons (h : f.plain=true) :
    refilling (f::fs)=refilling fs ∧ waiting (f::fs)=waiting fs ∧
      finalizing (f::fs)=finalizing fs ∧ position (f::fs)=position fs ∧
      updating (f::fs)=updating fs := by
  obtain ⟨hs,hw,hf,hp,hu⟩ := Frame.plain_iff.mp h
  refine ⟨List.filterMap_cons_none hs,List.filterMap_cons_none hw,
    List.filterMap_cons_none hf,?_,List.filterMap_cons_none hu⟩
  simp only [position,List.findSome?_cons,hp]

theorem looping_cons (h : f.plain=true) : looping (f::fs)=looping fs := by
  obtain ⟨-,-,-,hp,-⟩ := Frame.plain_iff.mp h
  simp only [looping,List.any_cons,hp,Option.isSome_none,Bool.false_or]

theorem NoUpdate.looping (h : NoUpdate fs) : looping fs=false :=
  List.any_eq_false.mpr fun f hf => by rw [(h f hf).2]; exact Bool.false_ne_true

/-- What waits fits together wherever else the top comes to rest. -/
theorem FramesOk.top_change {top' : ℤ} (h : FramesOk top fs) (ht : TopThere top' fs) :
    FramesOk top' fs := by
  induction fs with
  | nil => trivial
  | cons f rest ih =>
    have hrest : TopThere top' rest := fun s hs => ht s (by
      unfold refilling at hs ⊢
      rw [List.filterMap_cons]
      split
      · exact hs
      · exact List.mem_cons_of_mem _ hs)
    refine ⟨?_,ih h.2 hrest⟩
    cases f with
    | initLoop => exact h.1
    | directClean reset => exact h.1
    | directExpire reset => exact hrest
    | update g => exact ⟨hrest,h.1.2⟩
    | expire => exact ⟨hrest,h.1.2⟩
    | expList i => exact ⟨hrest,h.1.2⟩
    | _ => trivial

/-- Where no Update runs and no loop, nothing is counted. -/
theorem NoUpdate.updating (h : NoUpdate fs) : updating fs=[] :=
  List.filterMap_eq_nil_iff.mpr fun f hf => (h f hf).1

/-- Nor has a loop come anywhere. -/
theorem NoUpdate.position (h : NoUpdate fs) : position fs=0 := by
  have hnone : fs.findSome? Frame.position=none :=
    List.findSome?_eq_none_iff.mpr fun f hf => (h f hf).2
  rw [MotionMasterModel.position,hnone]
  rfl

/-- While an Update runs there is no loop over the delayed deletes. -/
theorem FramesOk.position_of_updating (h : FramesOk top fs) (hu : updating fs≠[]) :
    position fs=0 := by
  induction fs with
  | nil => rfl
  | cons f rest ih =>
    cases f with
    | update g => exact h.1.2.position
    | expList i => exact absurd h.1.2.updating hu
    | _ => exact ih h.2 hu

end Frames

section Slots

variable {impl : MovementSlot → Option MovementGenerator}

/-- What a slot gives up is what it held, and what it gets it holds. -/
theorem slotCount_update (s : MovementSlot) (o : Option MovementGenerator)
    (g : MovementGenerator) :
    slotCount (Function.update impl s o) g+held (impl s) g=slotCount impl g+held o g := by
  match s with
  | 0 => simp [slotCount,Function.update]; omega
  | 1 => simp [slotCount,Function.update]; omega
  | 2 => simp [slotCount,Function.update]; omega

/-- An empty slot holds nothing. -/
theorem held_none (g : MovementGenerator) : held none g=0 := rfl

/-- A slot in use holds one generator. -/
theorem held_some (c g : MovementGenerator) : held (some c) g=[c].count g := by
  unfold held
  by_cases h : c=g
  · subst h
    simp
  · simp [h]

/-- The loop of `pop` ends at the highest slot in use below where it starts. -/
theorem descend_ok (mm : MotionMaster) {n : ℕ} (hn : n ≤ 3)
    (h : ∃ s : MovementSlot, s.val < n ∧ mm.impl s≠none) :
    ∃ s : MovementSlot, s.val < n ∧ mm.impl s≠none ∧
      (∀ s', s < s' → s'.val < n → mm.impl s'=none) ∧
      mm.descend n=.ok { mm with top := s.val } := by
  induction n with
  | zero =>
    obtain ⟨s,hs,-⟩ := h
    exact absurd hs (Nat.not_lt_zero _)
  | succ n ih =>
    have hn3 : n < 3 := hn
    unfold MotionMaster.descend
    rw [dif_pos hn3]
    cases himpl : mm.impl ⟨n,hn3⟩ with
    | some c =>
      refine ⟨⟨n,hn3⟩,Nat.lt_succ_self n,?_,?_,if_pos rfl⟩
      · rw [himpl]
        rintro ⟨⟩
      · intro s' hlt hs'
        have hn : n < s'.val := Fin.lt_def.mp hlt
        omega
    | none =>
      have hbelow : ∃ s : MovementSlot, s.val < n ∧ mm.impl s≠none := by
        obtain ⟨s,hs,hsome⟩ := h
        refine ⟨s,Nat.lt_of_le_of_ne (Nat.le_of_lt_succ hs) fun he => hsome ?_,hsome⟩
        rw [show s=⟨n,hn3⟩ from Fin.ext he,himpl]
      obtain ⟨s,hs,hsome,habove,hdescend⟩ := ih (Nat.le_of_succ_le hn) hbelow
      refine ⟨s,Nat.lt_succ_of_lt hs,hsome,fun s' hlt hs' => ?_,?_⟩
      · by_cases he : s'.val=n
        · rw [show s'=⟨n,hn3⟩ from Fin.ext he,himpl]
        · exact habove s' hlt (by omega)
      · rw [Option.isSome_none,if_neg Bool.false_ne_true,hdescend]

end Slots

section Hand

variable {hand hand' : List MovementGenerator} {mm : MotionMaster}

/-- Of the generators in hand only those that were created count. -/
theorem Inv.in_hand (h : Inv hand mm)
    (he : ∀ n, hand'.count (.created n)=hand.count (.created n)) : Inv hand' mm :=
  { h with owned := fun n => by rw [he n]; exact h.owned n }

theorem Inv.adjust (h : Inv hand mm) (needInit : MovementSlot → Bool) (resetFlag result : Bool) :
    Inv hand { mm with needInit := needInit, resetFlag := resetFlag, result := result } :=
  ⟨h.fault,h.top,h.idle,h.empty,h.nodup,h.frames,h.flag,h.running,h.owned,h.deleted,h.listed⟩

/-- What waits may be written otherwise, where the same is counted. -/
theorem Inv.restack (h : Inv hand mm) {fs : List Frame}
    (hs : refilling fs=refilling mm.stack ∧ waiting fs=waiting mm.stack ∧
      finalizing fs=finalizing mm.stack ∧ position fs=position mm.stack ∧
      updating fs=updating mm.stack)
    (hframes : FramesOk mm.top fs) (hloop : looping fs=true → mm.expList.isSome=true) :
    Inv hand { mm with stack := fs } := by
  obtain ⟨hr,hw,hf,hp,hu⟩ := hs
  refine ⟨h.fault,?_,?_,?_,?_,hframes,?_,?_,?_,?_,hloop⟩
  · rw [hr]; exact h.top
  · rw [hr]; exact h.idle
  · rw [hr]; exact h.empty
  · rw [hr]; exact h.nodup
  · rw [hu]; exact h.flag
  · rw [hu]; exact h.running
  · intro n
    have howned := h.owned n
    unfold places expiring at howned ⊢
    rw [hw,hp]
    exact howned
  · rw [hf]; exact h.deleted

/-- A plain frame may wait where it fits. -/
theorem Inv.push (h : Inv hand mm) {f : Frame} (hp : f.plain=true)
    (hf : FrameOk mm.top mm.stack f) : Inv hand (mm.push f) :=
  h.restack (plain_cons hp) ⟨hf,h.frames⟩ (by rw [looping_cons hp]; exact h.listed)

theorem Inv.resume (h : Inv hand mm) {f : Frame} {rest : List Frame} (hs : mm.stack=f::rest)
    (hp : f.plain=true) : Inv hand { mm with stack := rest } := by
  have hframes := h.frames
  rw [hs] at hframes
  obtain ⟨hr,hw,hf,hpos,hu⟩ := @plain_cons rest _ hp
  refine h.restack (by rw [hs]; exact ⟨hr.symm,hw.symm,hf.symm,hpos.symm,hu.symm⟩) hframes.2 ?_
  rw [← looping_cons hp,← hs]
  exact h.listed

/-- A new generator is in hand. -/
theorem Inv.create (h : Inv [] mm) : Inv [.created mm.generators] mm.create := by
  refine { h with owned := fun n => ?_ }
  have howned := h.owned n
  show [MovementGenerator.created mm.generators].count (.created n)+mm.places (.created n)=
    if n < mm.generators+1 then 1 else 0
  rw [List.count_nil,Nat.zero_add] at howned
  rw [howned]
  by_cases he : n=mm.generators
  · subst he
    rw [if_neg (Nat.lt_irrefl _),if_pos (Nat.lt_succ_self _),List.count_singleton_self]
  · rw [List.count_eq_zero_of_not_mem (by simpa using he),Nat.zero_add]
    simp only [Nat.lt_succ_iff_lt_or_eq,he,or_false]

theorem Inv.claim {m : MovementGenerator} (h : Inv [m] mm) {slot : MovementSlot}
    (hslot : slot∉refilling mm.stack) :
    Inv (mm.impl slot).toList
      { mm.push (.mutate m slot) with
        impl := Function.update mm.impl slot none, top := max mm.top slot.val } := by
  obtain ⟨t,ht,hused,habove⟩ := h.top
  have hrefill : refilling (.mutate m slot::mm.stack)=slot::refilling mm.stack := rfl
  have hother : ∀ s, s≠slot → Function.update mm.impl slot none s=mm.impl s :=
    fun s hs => Function.update_of_ne hs _ _
  have hthere : TopThere (max mm.top slot.val) mm.stack ∨ max mm.top (slot.val : ℤ)=mm.top := by
    rcases le_or_gt (slot.val : ℤ) mm.top with hle | hgt
    · exact .inr (max_eq_left hle)
    · refine .inl fun s hs he => ?_
      rw [max_eq_right hgt.le] at he
      exact hslot (Fin.ext (Int.ofNat.inj he) ▸ hs)
  refine ⟨h.fault,?_,?_,?_,?_,?_,h.flag,h.running,fun n => ?_,h.deleted,h.listed⟩
  · refine ⟨max t slot,?_,?_,fun s hs => ?_⟩
    · simp only [ht,Fin.coe_max]
      omega
    · simp only [MotionMaster.push,hrefill]
      rcases le_or_gt t slot with hle | hgt
      · exact .inr (by rw [max_eq_right hle]; exact List.mem_cons_self)
      · rw [max_eq_left hgt.le,hother _ hgt.ne']
        exact hused.imp id (List.mem_cons_of_mem _)
    · obtain ⟨hts,hslots⟩ := max_lt_iff.mp hs
      simp only [MotionMaster.push,hrefill,hother _ hslots.ne',List.mem_cons,not_or]
      exact ⟨(habove s hts).1,hslots.ne',(habove s hts).2⟩
  · simp only [MotionMaster.push,hrefill]
    by_cases hs : (0 : MovementSlot)=slot
    · exact .inr (hs ▸ List.mem_cons_self)
    · rw [hother _ hs]
      exact h.idle.imp id (List.mem_cons_of_mem _)
  · intro s hs
    by_cases he : s=slot
    · subst he
      exact Function.update_self ..
    · simp only [MotionMaster.push,hrefill,List.mem_cons,he,false_or] at hs
      exact (hother s he).trans (h.empty s hs)
  · exact List.nodup_cons.mpr ⟨hslot,h.nodup⟩
  · refine ⟨trivial,?_⟩
    rcases hthere with hthere | hthere
    · exact h.frames.top_change hthere
    · rw [hthere]
      exact h.frames
  · have hcount := @slotCount_update mm.impl slot none (.created n)
    have hheld : held (mm.impl slot) (.created n)=(mm.impl slot).toList.count (.created n) := by
      cases mm.impl slot with
      | none => rfl
      | some c => exact held_some c _
    rw [held_none,hheld] at hcount
    show (mm.impl slot).toList.count (.created n)+
      (slotCount (Function.update mm.impl slot none) (.created n)+mm.expiring.count (.created n)+
        (m::waiting mm.stack).count (.created n)+mm.finalized.count (.created n))=
      if n < mm.generators then 1 else 0
    rw [← h.owned n,places]
    simp only [List.count_cons,List.count_nil]
    omega

/-- The generator in hand is finalized. -/
theorem Inv.directDelete {c : MovementGenerator} (h : Inv [c] mm)
    (hrunning : isStatic c=false → c∉updating mm.stack) :
    ∃ mm', mm.directDelete (some c)=.ok mm' ∧ Inv [] mm' := by
  simp only [MotionMaster.directDelete]
  by_cases hc : isStatic c
  · rw [if_pos hc]
    refine ⟨mm,rfl,h.in_hand fun n => ?_⟩
    rw [of_decide_eq_true hc]
    rfl
  rw [if_neg hc]
  refine ⟨_,rfl,h.fault,h.top,h.idle,h.empty,h.nodup,⟨trivial,h.frames⟩,h.flag,
    fun n hn => ?_,fun n => ?_,fun g => ?_,h.listed⟩
  · refine List.not_mem_cons_of_ne_of_not_mem (fun he => ?_) (h.running n hn)
    exact hrunning (Bool.not_eq_true _ ▸ hc) (he ▸ hn)
  · rw [List.count_nil,Nat.zero_add]
    show (slotCount mm.impl (.created n)+mm.expiring.count (.created n)+
      (waiting mm.stack).count (.created n)+(c::mm.finalized).count (.created n))=
      if n < mm.generators then 1 else 0
    rw [← h.owned n,places]
    simp only [List.count_cons,List.count_nil]
    omega
  · show mm.deleted.count g+(c::finalizing mm.stack).count g=(c::mm.finalized).count g
    rw [List.count_cons,List.count_cons,← h.deleted g,Nat.add_assoc]

/-- The generator in hand is put off. -/
theorem Inv.delayedDelete {c : MovementGenerator} (h : Inv [c] mm)
    (hpos : position mm.stack=0) :
    ∃ mm', mm.delayedDelete (some c)=.ok mm' ∧ Inv [] mm' ∧ mm'.top=mm.top ∧
      mm'.impl=mm.impl ∧ mm'.stack=mm.stack := by
  simp only [MotionMaster.delayedDelete]
  by_cases hc : isStatic c
  · rw [if_pos hc]
    refine ⟨mm,rfl,h.in_hand fun n => ?_,rfl,rfl,rfl⟩
    rw [of_decide_eq_true hc]
    rfl
  rw [if_neg hc]
  refine ⟨_,rfl,{ h with owned := fun n => ?_, listed := fun _ => rfl },rfl,rfl,rfl⟩
  rw [List.count_nil,Nat.zero_add]
  show slotCount mm.impl (.created n)+
    ((mm.expList.getD []++[c]).drop (position mm.stack)).count (.created n)+
    (waiting mm.stack).count (.created n)+mm.finalized.count (.created n)=
    if n < mm.generators then 1 else 0
  rw [← h.owned n,places,expiring,hpos]
  simp only [List.drop_zero,List.count_append,List.count_cons,List.count_nil]
  omega

theorem slotAt_val (s : MovementSlot) : slotAt (s.val : ℤ)=.ok s := by
  have hs : (0 : ℤ) ≤ s.val ∧ (s.val : ℤ) < 3 := ⟨Int.natCast_nonneg _,by omega⟩
  simp only [slotAt,dif_pos hs,Int.toNat_natCast]

/-- The top is in the arrays. -/
theorem Inv.slotAt_top (h : Inv hand mm) : ∃ t : MovementSlot, mm.top=t.val ∧
    slotAt mm.top=.ok t := by
  obtain ⟨t,ht,-⟩ := h.top
  exact ⟨t,ht,by rw [ht,slotAt_val]⟩

theorem Inv.not_empty (h : Inv hand mm) : mm.empty=false := by
  obtain ⟨t,ht,-⟩ := h.top
  exact decide_eq_false (by omega)

/-- The top slot is in use where it is not being refilled. -/
theorem Inv.top_used (h : Inv hand mm) (hthere : TopThere mm.top mm.stack) :
    ∃ (t : MovementSlot) (c : MovementGenerator), mm.top=t.val ∧ mm.impl t=some c ∧
      ∀ s, t < s → mm.impl s=none ∧ s∉refilling mm.stack := by
  obtain ⟨t,ht,hused,habove⟩ := h.top
  have hsome : mm.impl t≠none := hused.resolve_right fun hs => hthere t hs ht.symm
  obtain ⟨c,hc⟩ := Option.ne_none_iff_exists'.mp hsome
  exact ⟨t,c,ht,hc,habove⟩

/-- Then it may be followed. -/
theorem Inv.topPointer (h : Inv hand mm) (hthere : TopThere mm.top mm.stack) :
    ∃ (t : MovementSlot) (c : MovementGenerator), mm.impl t=some c ∧ mm.topGen=.ok (some c) ∧
      mm.topPointer=.ok c := by
  obtain ⟨t,c,ht,hc,-⟩ := h.top_used hthere
  have htop : mm.topGen=.ok (some c) := by
    rw [MotionMaster.topGen,ht,slotAt_val,← hc]
    rfl
  exact ⟨t,c,hc,htop,by rw [MotionMaster.topPointer,htop]; rfl⟩

/-- `pop` takes the top generator in hand and ends on a slot in use. -/
theorem Inv.pop (h : Inv [] mm) (hsize : 1 < mm.size) (hthere : TopThere mm.top mm.stack)
    (hpop : PopOk mm) :
    ∃ c mm', mm.topGen=.ok (some c) ∧ mm.pop=.ok mm' ∧ Inv [c] mm' ∧
      TopThere mm'.top mm'.stack ∧ mm'.stack=mm.stack ∧ mm'.top < mm.top := by
  obtain ⟨t,c,ht,hc,habove⟩ := h.top_used hthere
  have htop : mm.topGen=.ok (some c) := by
    rw [MotionMaster.topGen,ht,slotAt_val,← hc]
    rfl
  have ht0 : 0 < t.val := by
    unfold MotionMaster.size at hsize
    omega
  have hother : ∀ s, s≠t → Function.update mm.impl t none s=mm.impl s :=
    fun s hs => Function.update_of_ne hs _ _
  -- a slot in use below the top
  have hbelow : ∃ s : MovementSlot, s.val < t.val+1 ∧
      Function.update mm.impl t none s≠none := by
    have hused : ∃ s : MovementSlot, s < t ∧ mm.impl s≠none := by
      rcases h.idle with hidle | hidle
      · exact ⟨0,ht0,hidle⟩
      · obtain ⟨s,-,hst,hs⟩ := hpop 0 hidle (by rw [ht]; exact Int.ofNat_lt.mpr ht0)
        rw [ht] at hst
        exact ⟨s,Fin.lt_def.mpr (Int.ofNat_lt.mp hst),hs⟩
    obtain ⟨s,hst,hs⟩ := hused
    exact ⟨s,Nat.lt_succ_of_lt (Fin.lt_def.mp hst),by rwa [hother s hst.ne]⟩
  obtain ⟨s,hst,hs,hbetween,hdescend⟩ :=
    descend_ok { mm with impl := Function.update mm.impl t none } t.isLt hbelow
  have hne : s≠t := by
    rintro rfl
    exact hs (Function.update_self ..)
  have hlt : s < t := Fin.lt_def.mpr (Nat.lt_of_le_of_ne (Nat.le_of_lt_succ hst)
    (Fin.val_ne_of_ne hne))
  have hused : mm.impl s≠none := fun hnone => hs ((hother s hne).trans hnone)
  have hthere' : TopThere (s.val : ℤ) mm.stack := fun r hr he => by
    have hrs : r=s := Fin.ext (Int.ofNat.inj he)
    exact hused (hrs ▸ h.empty r hr)
  refine ⟨c,{ mm with impl := Function.update mm.impl t none, top := s.val },htop,?_,?_,hthere',
    rfl,?_⟩
  · have hn : mm.size.toNat=t.val+1 := by
      unfold MotionMaster.size
      omega
    have hslot : slotAt mm.top=.ok t := by rw [ht,slotAt_val]
    rw [MotionMaster.pop,hslot]
    show MotionMaster.descend _ mm.size.toNat=_
    rw [hn]
    exact hdescend
  · refine ⟨h.fault,⟨s,rfl,.inl hs,fun r hr => ?_⟩,?_,fun r hr => ?_,h.nodup,
      h.frames.top_change hthere',h.flag,h.running,fun n => ?_,h.deleted,h.listed⟩
    · rcases lt_trichotomy r t with hrt | rfl | hrt
      · have hnone := hbetween r hr (Nat.lt_succ_of_lt (Fin.lt_def.mp hrt))
        refine ⟨hnone,fun hr' => ?_⟩
        obtain ⟨r',hrr,hrt',hr'⟩ := hpop r hr' (by rw [ht]; exact Int.ofNat_lt.mpr hrt)
        rw [ht] at hrt'
        have hr't : r' < t := Fin.lt_def.mpr (Int.ofNat_lt.mp hrt')
        have hnone' := hbetween r' (hr.trans hrr) (Nat.lt_succ_of_lt (Fin.lt_def.mp hr't))
        exact hr' ((hother r' hr't.ne).symm.trans hnone')
      · exact ⟨Function.update_self ..,fun hr' => hthere r hr' ht.symm⟩
      · exact ⟨(hother r hrt.ne').trans (habove r hrt).1,(habove r hrt).2⟩
    · exact h.idle.imp
        (fun hidle hnone => hidle ((hother 0 (Fin.ne_of_lt ht0)).symm.trans hnone)) id
    · by_cases he : r=t
      · subst he
        exact Function.update_self ..
      · exact (hother r he).trans (h.empty r hr)
    · have hcount := @slotCount_update mm.impl t none (.created n)
      have howned := h.owned n
      rw [held_none,hc,held_some] at hcount
      rw [List.count_nil,Nat.zero_add,places] at howned
      show [c].count (.created n)+(slotCount (Function.update mm.impl t none) (.created n)+
        mm.expiring.count (.created n)+(waiting mm.stack).count (.created n)+
        mm.finalized.count (.created n))=if n < mm.generators then 1 else 0
      rw [← howned]
      omega
  · rw [ht]
    exact Int.ofNat_lt.mpr hlt

/-- `InitTop` follows the top. -/
theorem Inv.initTop (h : Inv [] mm) (hthere : TopThere mm.top mm.stack) :
    ∃ mm', mm.initTop=.ok mm' ∧ Inv [] mm' := by
  obtain ⟨t,c,-,-,hpointer⟩ := h.topPointer hthere
  refine ⟨_,by rw [MotionMaster.initTop,hpointer]; rfl,?_⟩
  exact (h.push (f := .initTop) rfl trivial).push (f := .callback .initial c) rfl trivial

/-- So does a `Reset` of the top. -/
theorem Inv.resetTop (h : Inv [] mm) (hthere : TopThere mm.top mm.stack) :
    ∃ mm', mm.resetTop=.ok mm' ∧ Inv [] mm' := by
  obtain ⟨t,c,-,-,hpointer⟩ := h.topPointer hthere
  refine ⟨_,by rw [MotionMaster.resetTop,hpointer]; rfl,?_⟩
  exact h.push (f := .callback .reset c) rfl trivial

/-- Whether the top needs to be initialized can be read. -/
theorem Inv.needInitTop (h : Inv hand mm) : ∃ b, mm.needInitTop=.ok b := by
  obtain ⟨t,-,hslot⟩ := h.slotAt_top
  exact ⟨_,by rw [MotionMaster.needInitTop,hslot]; rfl⟩

end Hand

end Projectnelth.MotionMasterModel
