import Mathlib
import Projectnelth.EventProcessorRuns

/-!
# Every event is treated once

In a run in which nothing is added once a kill began and no event that a kill meets refuses its
deletion, every operation comes to its end, and every event is pending once or was executed or
aborted and deleted.
-/

namespace Projectnelth.EventProcessorModel

open StableMultimap

variable {cb : Callbacks} {s s' : State} {op : Op}

/-- What an operation leaves behind: after an update nothing is due, and what was pending at its
start was executed in the order of the times; after a forced kill nothing is pending. -/
def Served (s s' : State) : Op → Prop
  | .update _ => (∀ y∈s'.events,s'.time < y.1) ∧
    ∃ ran,executions s'.log=ran++executions s.log ∧
      (timesOf (s.events.map Prod.snd) ran).Pairwise fun a b => b ≤ a
  | .killAllEvents true => s'.events=[]
  | _ => True

/-- Nothing is added from outside once a kill began. -/
def Allowed (s : State) : Op → Prop
  | .addEvent _ => s.aborting=false
  | _ => True

/-- An operation comes to its end and keeps the invariant. -/
theorem Inv.perform (htimely : Timely cb) (hquiet : Quiet cb) (h : Inv none s) (op : Op)
    (hop : Allowed s op) : ∃ s',Settles cb s op s' ∧ Inv none s' ∧ Served s s' op := by
  cases op with
  | addEvent t => exact ⟨_,⟨0,fun _ _ => rfl⟩,h.addNew hop t,trivial⟩
  | setToAbort id =>
    refine ⟨_,⟨0,fun _ _ => rfl⟩,?_,trivial⟩
    split_ifs with hmem
    · refine {h with marks := fun i hi => ?_}
      rcases List.mem_cons.mp hi with rfl | hi
      · have hwait := (h.waiting i).mpr hmem
        exact not_le.mp fun hle => (by cases hwait.symm.trans ((h.absent i).mpr hle))
      · exact h.marks i hi
    · exact h
  | killAllEvents force =>
    refine ⟨s.killed,⟨s.events.length,fun n hn => h.killAllEvents hquiet force hn⟩,h.killed,?_⟩
    cases force with
    | true => exact rfl
    | false => trivial
  | update diff =>
    have hlater : Inv none {s with time := (s.time+diff)%2^64} := {h with}
    obtain ⟨n₀,s',hrun,hup⟩ := updateLoop_spec htimely hquiet (s.events.map Prod.snd) hlater
      (fun i hi => not_le.mp fun hle =>
        (by cases ((h.waiting i).mpr hi).symm.trans ((h.absent i).mpr hle)))
      (show ∀ _ _ _,0 ≤ _ from fun _ _ _ => Nat.zero_le _) (Nat.zero_le _)
    obtain ⟨ran,hran,hsorted,-⟩ := hup.sorted
    exact ⟨s',⟨n₀,hrun⟩,hup.inv,hup.later,ran,hran,hsorted⟩

/-- The end of an operation is one state. -/
theorem Settles.unique {s₁ s₂ : State} (h₁ : Settles cb s op s₁) (h₂ : Settles cb s op s₂) :
    s₁=s₂ := by
  obtain ⟨n₁,h₁⟩ := h₁
  obtain ⟨n₂,h₂⟩ := h₂
  have heq := (h₁ (max n₁ n₂) (le_max_left _ _)).symm.trans (h₂ (max n₁ n₂) (le_max_right _ _))
  exact Option.some.inj heq

/-- Events that are executed once, but for the first one, which is added again for the time
five later as long as no kill began. -/
def repeating : Callbacks where
  execute := fun s id =>
    if id=0 ∧ s.aborting=false then ([.readd (s.time+5)],false) else ([],true)
  abort := fun _ _ => []
  isDeletable := fun _ _ => true

end Projectnelth.EventProcessorModel
