import Mathlib
import Projectnelth.EventProcessorHistory

/-!
# What the event processor does in one step

The queue is in order and holds exactly the waiting events. Every operation keeps that as long
as nothing is added once a kill began and the events that a kill meets may be deleted. A kill
then empties the queue, and every turn of the main loop leaves less to do.
-/

namespace Projectnelth.EventProcessorModel

open StableMultimap

/-- Whether an action adds the executed event again. -/
def Action.isReadd : Action → Bool
  | .readd _ => true
  | _ => false

/-- What the events keep to: they are added for a time later than the current one, an execution
adds its own event once at most, and does not let it be deleted then. -/
structure Timely (cb : Callbacks) : Prop where
  /-- New events are due later. -/
  later : ∀ s id t,Action.add t∈(cb.execute s id).1 → s.time < t
  /-- The event itself is due later. -/
  laterAgain : ∀ s id t,Action.readd t∈(cb.execute s id).1 → s.time < t
  /-- The event is added again once at most. -/
  once : ∀ s id,(cb.execute s id).1.countP Action.isReadd ≤ 1
  /-- An event that was added again is not to be deleted. -/
  kept : ∀ s id,(cb.execute s id).2=true → (cb.execute s id).1.countP Action.isReadd=0

/-- An execution adds nothing once a kill began, by itself or before. -/
def Orderly : Bool → List Action → Prop
  | _,[] => True
  | aborting,.add _::actions => aborting=false ∧ Orderly aborting actions
  | aborting,.readd _::actions => aborting=false ∧ Orderly aborting actions
  | _,.kill _::actions => Orderly true actions

/-- Nothing is added by a callback once a kill began, and an event that is asked whether it may
be deleted may be. -/
structure Quiet (cb : Callbacks) : Prop where
  execute : ∀ s id,Orderly s.aborting (cb.execute s id).1
  abort : ∀ s id,s.aborting=true → cb.abort s id=[]
  deletable : ∀ s id,cb.isDeletable s id=true

/-- The executions of a history with their times, the latest first. -/
def executions : List Entry → List (ℕ×ℕ)
  | [] => []
  | .executed id t _::l => (t,id)::executions l
  | _::l => executions l

/-- The queue and the history agree; at most one event is just being aborted. -/
structure Inv (busy : Option ℕ) (s : State) : Prop where
  /-- The queue is in the order of the times. -/
  ordered : Ordered Prod.fst s.events
  nodup : (s.events.map Prod.snd).Nodup
  legal : Legal s.log
  waiting : ∀ id,phase s.log id=.waiting ↔ id∈s.events.map Prod.snd
  /-- The numbers from the next one on are not used. -/
  absent : ∀ id,phase s.log id=.absent ↔ s.created ≤ id
  /-- An event that was aborted and not deleted is the one that is being aborted. -/
  settled : ∀ id,phase s.log id=.aborted → busy=some id
  marks : ∀ id∈s.toAbort,id < s.created
  /-- The flag is set when a kill began. -/
  flagged : s.aborting=false → Entry.killStarted∉s.log

variable {busy : Option ℕ} {s s' : State} {id t : ℕ} {cb : Callbacks}

/-- The processor as it is constructed. -/
theorem inv_empty : Inv none .empty where
  ordered := List.Pairwise.nil
  nodup := List.nodup_nil
  legal := trivial
  waiting := fun _ => ⟨fun h => (by cases h),fun h => (by cases h)⟩
  absent := fun id => ⟨fun _ => Nat.zero_le id,fun _ => rfl⟩
  settled := fun _ h => by cases h
  marks := fun _ h => by cases h
  flagged := fun _ h => by cases h

theorem map_insert (x : ℕ×ℕ) (xs : List (ℕ×ℕ)) :
    ((insert Prod.fst x xs).map Prod.snd).Perm (x.2::xs.map Prod.snd) :=
  (insert_perm Prod.fst x xs).map Prod.snd

theorem Inv.addEvent (h : Inv busy s) (hflag : s.aborting=false)
    (hphase : phase s.log id=.absent ∨ phase s.log id=.ran) {created : ℕ}
    (habsent : ∀ i,(id≠i ∧ phase s.log i=.absent) ↔ created ≤ i)
    (hcreated : s.created ≤ created) :
    Inv busy {s.addEvent id t with created := created} where
  ordered := ordered_insert h.ordered
  nodup := by
    refine (map_insert (t,id) s.events).nodup_iff.mpr (List.nodup_cons.mpr ⟨fun hmem => ?_,h.nodup⟩)
    rw [(h.waiting id).mpr hmem] at hphase
    exact hphase.elim (fun h => by cases h) (fun h => by cases h)
  legal := ⟨⟨hphase,h.flagged hflag⟩,h.legal⟩
  waiting := fun i => by
    refine Iff.trans ?_ (map_insert (t,id) s.events).mem_iff.symm
    rw [List.mem_cons]
    by_cases hi : id=i
    · exact ⟨fun _ => Or.inl hi.symm,fun _ => if_pos hi⟩
    · refine (iff_of_eq (congrArg (· =Phase.waiting) (if_neg hi))).trans ((h.waiting i).trans ?_)
      exact ⟨Or.inr,fun hor => hor.resolve_left (Ne.symm hi)⟩
  absent := fun i => by
    refine Iff.trans ?_ (habsent i)
    by_cases hi : id=i
    · exact ⟨fun hp => (by cases (if_pos hi).symm.trans hp),fun hboth => absurd hi hboth.1⟩
    · refine (iff_of_eq (congrArg (· =Phase.absent) (if_neg hi))).trans ?_
      exact ⟨fun hp => ⟨hi,hp⟩,And.right⟩
  settled := fun i hp => by
    by_cases hi : id=i
    · cases (if_pos hi).symm.trans hp
    · exact h.settled i ((if_neg hi).symm.trans hp)
  marks := fun i hi => (h.marks i hi).trans_le hcreated
  flagged := fun hf hmem =>
    h.flagged hf ((List.mem_cons.mp hmem).resolve_left (fun h => by cases h))

theorem Inv.addNew (h : Inv busy s) (hflag : s.aborting=false) (t : ℕ) :
    Inv busy (s.addNew t) := by
  refine h.addEvent hflag (Or.inl ((h.absent _).mpr le_rfl)) (fun i => ?_) (Nat.le_succ _)
  rw [h.absent]
  omega

theorem Inv.readd (h : Inv busy s) (hflag : s.aborting=false) (hran : phase s.log id=.ran)
    (t : ℕ) : Inv busy (s.addEvent id t) := by
  refine h.addEvent hflag (Or.inr hran) (fun i => ?_) le_rfl
  rw [← h.absent]
  refine ⟨And.right,fun hp => ⟨fun hi => ?_,hp⟩⟩
  rw [← hi,hran] at hp
  cases hp

/-- An event that ran or that is being aborted is deleted. -/
theorem Inv.destroy (h : Inv (some id) s)
    (hphase : phase s.log id=.ran ∨ phase s.log id=.aborted) :
    Inv none (s.logged (.destroyed id)) where
  ordered := h.ordered
  nodup := h.nodup
  legal := ⟨hphase,h.legal⟩
  waiting := fun i => by
    by_cases hi : id=i
    · refine ⟨fun hp => (by cases (if_pos hi).symm.trans hp),fun hmem => ?_⟩
      rw [hi,(h.waiting i).mpr hmem] at hphase
      exact hphase.elim (fun h => by cases h) (fun h => by cases h)
    · exact (iff_of_eq (congrArg (· =Phase.waiting) (if_neg hi))).trans (h.waiting i)
  absent := fun i => by
    by_cases hi : id=i
    · refine ⟨fun hp => (by cases (if_pos hi).symm.trans hp),fun hle => ?_⟩
      rw [hi,(h.absent i).mpr hle] at hphase
      exact hphase.elim (fun h => by cases h) (fun h => by cases h)
    · exact (iff_of_eq (congrArg (· =Phase.absent) (if_neg hi))).trans (h.absent i)
  settled := fun i hp => by
    by_cases hi : id=i
    · cases (if_pos hi).symm.trans hp
    · exact absurd (Option.some.inj (h.settled i ((if_neg hi).symm.trans hp))) hi
  marks := h.marks
  flagged := fun hf hmem =>
    h.flagged hf ((List.mem_cons.mp hmem).resolve_left (fun h => by cases h))

/-- Nothing is lost when no event is said to be in its abortion. -/
theorem Inv.weaken (h : Inv none s) (id : ℕ) : Inv (some id) s :=
  {h with settled := fun i hp => by cases h.settled i hp}

/-- The first event leaves the queue for an entry that ends its waiting. -/
theorem Inv.pop {x : ℕ×ℕ} {rest : List (ℕ×ℕ)} {e : Entry} {p : Phase} (h : Inv none s)
    (hevents : s.events=x::rest) (hp : p≠.waiting) (hp' : p≠.absent)
    (hphase : ∀ i,phase (e::s.log) i=if x.2=i then p else phase s.log i)
    (hright : Rightly s.log e) (hkill : e≠.killStarted) (hbusy : p=.aborted → busy=some x.2) :
    Inv busy ({s with events := rest}.logged e) where
  ordered := (List.pairwise_cons.mp (hevents ▸ h.ordered)).2
  nodup := (List.nodup_cons.mp (hevents ▸ h.nodup : ((x::rest).map Prod.snd).Nodup)).2
  legal := ⟨hright,h.legal⟩
  waiting := fun i => by
    have hnodup : ((x::rest).map Prod.snd).Nodup := hevents ▸ h.nodup
    have hwait := h.waiting i
    rw [hevents,List.map_cons,List.mem_cons] at hwait
    refine (iff_of_eq (congrArg (· =Phase.waiting) (hphase i))).trans ?_
    by_cases hi : x.2=i
    · rw [if_pos hi]
      exact ⟨fun hw => absurd hw hp,fun hmem =>
        absurd (hi.symm ▸ hmem) (List.nodup_cons.mp hnodup).1⟩
    · rw [if_neg hi,hwait]
      exact ⟨fun hor => hor.resolve_left (Ne.symm hi),Or.inr⟩
  absent := fun i => by
    refine (iff_of_eq (congrArg (· =Phase.absent) (hphase i))).trans ?_
    by_cases hi : x.2=i
    · rw [if_pos hi]
      have hwait := (h.waiting i).mpr (by rw [hevents]; exact hi ▸ List.mem_cons_self)
      exact ⟨fun hw => absurd hw hp',fun hle => (by cases hwait.symm.trans ((h.absent i).mpr hle))⟩
    · rw [if_neg hi]
      exact h.absent i
  settled := fun i hi => by
    have heq := (hphase i).symm.trans hi
    by_cases hx : x.2=i
    · rw [if_pos hx] at heq
      exact hx ▸ hbusy heq
    · rw [if_neg hx] at heq
      cases h.settled i heq
  marks := h.marks
  flagged := fun hf hmem => h.flagged hf ((List.mem_cons.mp hmem).resolve_left (Ne.symm hkill))

theorem Inv.head_waiting {x : ℕ×ℕ} {rest : List (ℕ×ℕ)} (h : Inv busy s)
    (hevents : s.events=x::rest) : phase s.log x.2=.waiting :=
  (h.waiting x.2).mpr (by rw [hevents]; exact List.mem_cons_self)

section Kills

/-- What a kill adds to a history: every event is aborted and deleted. -/
def killLog : List (ℕ×ℕ) → List Entry → List Entry
  | [],l => l
  | x::rest,l => killLog rest (.destroyed x.2::.aborted x.2::l)

/-- The marks that a kill sets. -/
def killMarks : List (ℕ×ℕ) → List ℕ → List ℕ
  | [],marks => marks
  | x::rest,marks => killMarks rest (x.2::marks)

/-- A processor all of whose events were killed. -/
def State.killed (s : State) : State :=
  {s with
    aborting := true
    events := []
    toAbort := killMarks s.events s.toAbort
    log := killLog s.events (.killStarted::s.log)}

/-- The walk of a kill in which nothing is added. -/
theorem killLoop_quiet (hcb : Quiet cb) {force : Bool} {before rest : List (ℕ×ℕ)}
    (hflag : s.aborting=true) (hnodup : ((before++rest).map Prod.snd).Nodup) {fuel : ℕ}
    (hfuel : rest.length ≤ fuel) :
    killLoop cb force fuel s before rest=
      some {s with
        events := if force=true then [] else before
        toAbort := killMarks rest s.toAbort
        log := killLog rest s.log} := by
  induction rest generalizing s before fuel with
  | nil => cases fuel <;> rfl
  | cons x rest ih =>
    cases fuel with
    | zero => exact absurd hfuel (Nat.not_succ_le_zero _)
    | succ fuel =>
      have hnil : cb.abort (({s with toAbort := x.2::s.toAbort}).logged (.aborted x.2)) x.2=[] :=
        hcb.abort _ _ hflag
      have hx : x∉before := fun hmem => by
        rw [List.map_append,List.nodup_append] at hnodup
        exact hnodup.2.2 _ (List.mem_map_of_mem hmem) _ List.mem_cons_self rfl
      have hshift : ((before++[x]++rest).map Prod.snd).Nodup := by
        rw [List.append_assoc]
        exact hnodup
      unfold killLoop
      dsimp only
      unfold killOne
      dsimp only
      rw [hnil]
      cases force with
      | true =>
        rw [if_pos rfl]
        exact (ih (by exact hflag) (by exact hshift) (Nat.le_of_succ_le_succ hfuel)).trans rfl
      | false =>
        rw [if_neg Bool.false_ne_true,if_pos (hcb.deletable _ _)]
        have herase : (before++[x]).erase x=before := by
          rw [List.erase_append_right _ hx,List.erase_cons_head,List.append_nil]
        dsimp only [Walk.addAll]
        rw [herase]
        refine (ih (by exact hflag) ?_ (Nat.le_of_succ_le_succ hfuel)).trans rfl
        refine hnodup.sublist ((List.Sublist.append_left ?_ before).map Prod.snd)
        exact List.sublist_cons_self x rest

theorem phase_killLog (rest : List (ℕ×ℕ)) (l : List Entry) (i : ℕ) :
    phase (killLog rest l) i=if i∈rest.map Prod.snd then .destroyed else phase l i := by
  induction rest generalizing l with
  | nil => rfl
  | cons x rest ih =>
    rw [killLog,ih,List.map_cons]
    by_cases hi : i∈rest.map Prod.snd
    · rw [if_pos hi,if_pos (List.mem_cons_of_mem _ hi)]
    rw [if_neg hi]
    by_cases hx : i=x.2
    · rw [if_pos (hx ▸ List.mem_cons_self)]
      exact if_pos hx.symm
    · rw [if_neg (fun hmem => (List.mem_cons.mp hmem).elim hx hi)]
      exact (if_neg (Ne.symm hx)).trans (if_neg (Ne.symm hx))

theorem legal_killLog {rest : List (ℕ×ℕ)} {l : List Entry} (hl : Legal l)
    (hnodup : (rest.map Prod.snd).Nodup) (hwait : ∀ i∈rest.map Prod.snd,phase l i=.waiting) :
    Legal (killLog rest l) := by
  induction rest generalizing l with
  | nil => exact hl
  | cons x rest ih =>
    obtain ⟨hx,hrest⟩ := List.nodup_cons.mp hnodup
    refine ih ⟨Or.inr (if_pos rfl),hwait x.2 List.mem_cons_self,hl⟩ hrest fun i hi => ?_
    have hne : x.2≠i := fun heq => hx (heq ▸ hi)
    exact ((if_neg hne).trans (if_neg hne)).trans (hwait i (List.mem_cons_of_mem _ hi))

theorem executions_killLog (rest : List (ℕ×ℕ)) (l : List Entry) :
    executions (killLog rest l)=executions l := by
  induction rest generalizing l with
  | nil => rfl
  | cons x rest ih => exact (ih _).trans rfl

theorem mem_killMarks {rest : List (ℕ×ℕ)} {marks : List ℕ} {i : ℕ}
    (h : i∈killMarks rest marks) : i∈rest.map Prod.snd ∨ i∈marks := by
  induction rest generalizing marks with
  | nil => exact Or.inr h
  | cons x rest ih =>
    rcases ih h with hrest | hmarks
    · exact Or.inl (List.mem_cons_of_mem _ hrest)
    · rcases List.mem_cons.mp hmarks with rfl | hmarks
      · exact Or.inl List.mem_cons_self
      · exact Or.inr hmarks

/-- A kill comes to its end with an empty queue. -/
theorem Inv.killAllEvents (h : Inv none s) (hcb : Quiet cb) (force : Bool) {fuel : ℕ}
    (hfuel : s.events.length ≤ fuel) :
    killAllEvents cb fuel force s=some s.killed := by
  unfold EventProcessorModel.killAllEvents
  rw [killLoop_quiet hcb rfl (by rw [List.nil_append]; exact h.nodup) hfuel]
  cases force <;> rfl

theorem Inv.killed (h : Inv none s) : Inv none s.killed where
  ordered := List.Pairwise.nil
  nodup := List.nodup_nil
  legal := legal_killLog ⟨trivial,h.legal⟩ h.nodup fun i hi => (h.waiting i).mpr hi
  waiting := fun i => by
    refine ⟨fun hp => ?_,fun hmem => (by cases hmem)⟩
    have hp' := (phase_killLog s.events (.killStarted::s.log) i).symm.trans hp
    split_ifs at hp' with hi
    exact absurd ((h.waiting i).mp hp') hi
  absent := fun i => by
    refine (iff_of_eq (congrArg (· =Phase.absent) (phase_killLog _ _ i))).trans ?_
    split_ifs with hi
    · refine ⟨fun hp => (by cases hp),fun hle => ?_⟩
      have hab := (h.absent i).mpr hle
      cases ((h.waiting i).mpr hi).symm.trans hab
    · exact h.absent i
  settled := fun i hp => by
    have hp' := (phase_killLog s.events (.killStarted::s.log) i).symm.trans hp
    split_ifs at hp' with hi
    exact h.settled i hp'
  marks := fun i hi => by
    rcases mem_killMarks hi with hmem | hmem
    · have hwait := (h.waiting i).mpr hmem
      exact not_le.mp fun hle => (by cases hwait.symm.trans ((h.absent i).mpr hle))
    · exact h.marks i hmem
  flagged := fun hf => (by cases hf)

end Kills

end Projectnelth.EventProcessorModel
