import Mathlib
import Projectnelth.EventProcessorModel

/-!
# The life of an event

An event waits after it was added, and again after each time it was added by its own execution.
It is executed or aborted when it waits, and deleted after either. In a history in which every
entry stands rightly on what came before, an event is aborted once at most, and where it waits
no more it was executed or aborted and deleted.
-/

namespace Projectnelth.EventProcessorModel

open StableMultimap

/-- Where an event is in its life. -/
inductive Phase where
  | absent
  | waiting
  | ran
  | aborted
  | destroyed
  deriving DecidableEq,Repr

/-- The phase of an event by the last entry about it. -/
def phase : List Entry → ℕ → Phase
  | [],_ => .absent
  | .added i _::l,id => if i=id then .waiting else phase l id
  | .executed i _ _::l,id => if i=id then .ran else phase l id
  | .aborted i::l,id => if i=id then .aborted else phase l id
  | .destroyed i::l,id => if i=id then .destroyed else phase l id
  | .killStarted::l,id => phase l id

/-- An entry stands rightly on a history. Nothing is added after a kill began. -/
def Rightly (l : List Entry) : Entry → Prop
  | .added id _ => (phase l id=.absent ∨ phase l id=.ran) ∧ Entry.killStarted∉l
  | .executed id t now => phase l id=.waiting ∧ t ≤ now
  | .aborted id => phase l id=.waiting
  | .destroyed id => phase l id=.ran ∨ phase l id=.aborted
  | .killStarted => True

/-- Every entry stands rightly on what came before. -/
def Legal : List Entry → Prop
  | [] => True
  | e::l => Rightly l e ∧ Legal l

/-- Whether the last entry that added or executed an event added it. -/
def waitedFor : List Entry → ℕ → Bool
  | [],_ => false
  | .added i _::l,id => if i=id then true else waitedFor l id
  | .executed i _ _::l,id => if i=id then false else waitedFor l id
  | _::l,id => waitedFor l id

variable {l : List Entry} {id i t now : ℕ}

/-- What a legal history says about an event in one phase. -/
structure Told (l : List Entry) (id : ℕ) : Prop where
  /-- A waiting event was added last. -/
  waiting : phase l id=.waiting → waitedFor l id=true
  ran : phase l id=.ran → ∃ t now,Entry.executed id t now∈l
  aborted : phase l id=.aborted → Entry.aborted id∈l
  /-- A deleted event was executed or aborted. -/
  destroyed : phase l id=.destroyed → Entry.destroyed id∈l ∧
    ((∃ t now,Entry.executed id t now∈l) ∨ Entry.aborted id∈l)
  /-- An event that was deleted stays so. -/
  gone : Entry.destroyed id∈l → phase l id=.destroyed
  /-- An event that was aborted is deleted after that, if anything. -/
  dropped : Entry.aborted id∈l → phase l id=.aborted ∨ phase l id=.destroyed
  once : l.count (Entry.aborted id) ≤ 1

/-- An entry about another event or none does not change what is told about an event. -/
theorem Told.cons {e : Entry} (h : Told l id) (hphase : phase (e::l) id=phase l id)
    (hwait : waitedFor (e::l) id=waitedFor l id) (habort : e≠.aborted id)
    (hdestroy : e≠.destroyed id) : Told (e::l) id where
  waiting := fun hp => hwait.trans (h.waiting (hphase ▸ hp))
  ran := fun hp => by
    obtain ⟨t,now,hmem⟩ := h.ran (hphase ▸ hp)
    exact ⟨t,now,List.mem_cons_of_mem e hmem⟩
  aborted := fun hp => List.mem_cons_of_mem e (h.aborted (hphase ▸ hp))
  destroyed := fun hp => by
    obtain ⟨hd,hor⟩ := h.destroyed (hphase ▸ hp)
    refine ⟨List.mem_cons_of_mem e hd,?_⟩
    rcases hor with ⟨t,now,hx⟩ | ha
    · exact Or.inl ⟨t,now,List.mem_cons_of_mem e hx⟩
    · exact Or.inr (List.mem_cons_of_mem e ha)
  gone := fun hmem => hphase.trans
    (h.gone ((List.mem_cons.mp hmem).resolve_left (Ne.symm hdestroy)))
  dropped := fun hmem => hphase ▸
    h.dropped ((List.mem_cons.mp hmem).resolve_left (Ne.symm habort))
  once := by
    rw [List.count_cons_of_ne habort]
    exact h.once

/-- An event that waits, that ran or that is not there was neither aborted nor deleted. -/
theorem Told.untouched (h : Told l id) (hphase : phase l id≠.aborted)
    (hphase' : phase l id≠.destroyed) : Entry.aborted id∉l ∧ Entry.destroyed id∉l :=
  ⟨fun hmem => (h.dropped hmem).elim hphase hphase',fun hmem => hphase' (h.gone hmem)⟩

/-- An event that is added to a history where it is not there or ran. -/
theorem Told.added (h : Told l id) (hright : phase l id=.absent ∨ phase l id=.ran) :
    Told (.added id t::l) id := by
  have hphase : phase (.added id t::l) id=.waiting := if_pos rfl
  obtain ⟨ha,hd⟩ := h.untouched (fun hp => by rw [hp] at hright; simp at hright)
    (fun hp => by rw [hp] at hright; simp at hright)
  constructor
  · exact fun _ => if_pos rfl
  · exact fun hp => by cases hphase.symm.trans hp
  · exact fun hp => by cases hphase.symm.trans hp
  · exact fun hp => by cases hphase.symm.trans hp
  · exact fun hmem => absurd ((List.mem_cons.mp hmem).resolve_left (fun h => by cases h)) hd
  · exact fun hmem => absurd ((List.mem_cons.mp hmem).resolve_left (fun h => by cases h)) ha
  · exact (List.count_cons_of_ne (by simp)).le.trans h.once

theorem Told.executed (h : Told l id) (hright : phase l id=.waiting) :
    Told (.executed id t now::l) id := by
  have hphase : phase (.executed id t now::l) id=.ran := if_pos rfl
  obtain ⟨ha,hd⟩ := h.untouched (by rw [hright]; decide) (by rw [hright]; decide)
  constructor
  · exact fun hp => by cases hphase.symm.trans hp
  · exact fun _ => ⟨t,now,List.mem_cons_self⟩
  · exact fun hp => by cases hphase.symm.trans hp
  · exact fun hp => by cases hphase.symm.trans hp
  · exact fun hmem => absurd ((List.mem_cons.mp hmem).resolve_left (fun h => by cases h)) hd
  · exact fun hmem => absurd ((List.mem_cons.mp hmem).resolve_left (fun h => by cases h)) ha
  · exact (List.count_cons_of_ne (by simp)).le.trans h.once

theorem Told.abort (h : Told l id) (hright : phase l id=.waiting) :
    Told (.aborted id::l) id := by
  have hphase : phase (.aborted id::l) id=.aborted := if_pos rfl
  obtain ⟨ha,hd⟩ := h.untouched (by rw [hright]; decide) (by rw [hright]; decide)
  constructor
  · exact fun hp => by cases hphase.symm.trans hp
  · exact fun hp => by cases hphase.symm.trans hp
  · exact fun _ => List.mem_cons_self
  · exact fun hp => by cases hphase.symm.trans hp
  · exact fun hmem => absurd ((List.mem_cons.mp hmem).resolve_left (fun h => by cases h)) hd
  · exact fun _ => Or.inl hphase
  · rw [List.count_cons_self,List.count_eq_zero_of_not_mem ha]

theorem Told.destroy (h : Told l id) (hright : phase l id=.ran ∨ phase l id=.aborted) :
    Told (.destroyed id::l) id := by
  have hphase : phase (.destroyed id::l) id=.destroyed := if_pos rfl
  constructor
  · exact fun hp => by cases hphase.symm.trans hp
  · exact fun hp => by cases hphase.symm.trans hp
  · exact fun hp => by cases hphase.symm.trans hp
  · refine fun _ => ⟨List.mem_cons_self,?_⟩
    rcases hright with hr | ha
    · obtain ⟨t,now,hmem⟩ := h.ran hr
      exact Or.inl ⟨t,now,List.mem_cons_of_mem _ hmem⟩
    · exact Or.inr (List.mem_cons_of_mem _ (h.aborted ha))
  · exact fun _ => hphase
  · exact fun _ => Or.inr hphase
  · exact (List.count_cons_of_ne (by simp)).le.trans h.once

/-- A legal history tells about every event. -/
theorem Legal.told (h : Legal l) (id : ℕ) : Told l id := by
  induction l with
  | nil =>
    constructor
    · exact fun h => by cases h
    · exact fun h => by cases h
    · exact fun h => by cases h
    · exact fun h => by cases h
    · exact fun h => by cases h
    · exact fun h => by cases h
    · exact Nat.zero_le 1
  | cons e l ih =>
    obtain ⟨hright,hl⟩ := h
    have told := ih hl
    cases e with
    | killStarted => exact told.cons rfl rfl (fun h => by cases h) (fun h => by cases h)
    | added i t =>
      by_cases hi : i=id
      · exact hi ▸ Told.added (hi.symm ▸ told) hright.1
      · exact told.cons (if_neg hi) (if_neg hi) (fun h => by cases h) (fun h => by cases h)
    | executed i t now =>
      by_cases hi : i=id
      · exact hi ▸ Told.executed (hi.symm ▸ told) hright.1
      · exact told.cons (if_neg hi) (if_neg hi) (fun h => by cases h) (fun h => by cases h)
    | aborted i =>
      by_cases hi : i=id
      · exact hi ▸ Told.abort (hi.symm ▸ told) hright
      · exact told.cons (if_neg hi) rfl (fun h => hi (Entry.aborted.inj h)) (fun h => by cases h)
    | destroyed i =>
      by_cases hi : i=id
      · exact hi ▸ Told.destroy (hi.symm ▸ told) hright
      · exact told.cons (if_neg hi) rfl (fun h => by cases h) (fun h => hi (Entry.destroyed.inj h))

/-- Nothing was added after a kill began in a legal history. -/
theorem Legal.stopped {newer older : List Entry} (h : Legal (newer++.killStarted::older))
    (hmem : Entry.added id t∈newer) : False := by
  induction newer with
  | nil => cases hmem
  | cons e newer ih =>
    rcases List.mem_cons.mp hmem with rfl | hmem
    · exact h.1.2 (List.mem_append_right _ List.mem_cons_self)
    · exact ih h.2 hmem

/-- An execution in a legal history came when the event was due. -/
theorem Legal.due (h : Legal l) (hmem : Entry.executed id t now∈l) : t ≤ now := by
  induction l with
  | nil => cases hmem
  | cons e l ih =>
    rcases List.mem_cons.mp hmem with rfl | hmem
    · exact h.1.2
    · exact ih h.2 hmem

end Projectnelth.EventProcessorModel
