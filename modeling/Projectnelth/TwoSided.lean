import Mathlib
import Projectnelth.KeyedList

/-!
# A relation that is stored on both sides

An owner keeps a table of names, one for each place it uses. A record has a name, a place, and
a list of its owners. The two sides agree when an owner is listed by a record, once, just where
its table has the name of the record under the place of the record. The rules here say which
changes of the one side and of the other keep this.
-/

namespace Projectnelth.TwoSided

open KeyedList

variable {α κ σ β : Type*} [DecidableEq α] [DecidableEq κ] [DecidableEq σ]

/-- What of a record the two sides are about. -/
structure Sides (α κ σ β : Type*) where
  name : β → σ
  place : β → κ
  owners : β → List α

/-- The tables with one entry written. -/
def write (T : α → κ → Option σ) (a : α) (k : κ) (o : Option σ) : α → κ → Option σ :=
  fun a' k' => if a'=a ∧ k'=k then o else T a' k'

/-- The two sides agree. -/
structure Agree (v : Sides α κ σ β) (l : List β) (T : α → κ → Option σ) : Prop where
  names : (l.map v.name).Nodup
  /-- A name in a table is that of a record of its place, which lists the owner. -/
  entry : ∀ a k s, T a k=some s → ∃ b∈l, v.name b=s ∧ v.place b=k ∧ a∈v.owners b
  listed : ∀ b∈l, ∀ a∈v.owners b, T a (v.place b)=some (v.name b)
  once : ∀ b∈l, (v.owners b).Nodup

variable {v : Sides α κ σ β} {l : List β} {T : α → κ → Option σ} {a : α} {k k' : κ} {s : σ} {b b' : β}

omit [DecidableEq σ] in
theorem write_self (T : α → κ → Option σ) (a : α) (k : κ) (o : Option σ) : write T a k o a k=o :=
  if_pos ⟨rfl,rfl⟩

omit [DecidableEq σ] in
theorem write_of_ne {a' : α} (o : Option σ) (h : ¬(a'=a ∧ k'=k)) :
    write T a k o a' k'=T a' k' :=
  if_neg h

omit [DecidableEq σ] in
/-- What is there already may be written. -/
theorem write_eq_self {o : Option σ} (h : T a k=o) : write T a k o=T := by
  funext a' k'
  by_cases he : a'=a ∧ k'=k
  · rw [he.1,he.2,write_self,h]
  · exact write_of_ne o he

omit [DecidableEq σ] in
/-- The last of two entries that are written in one place counts. -/
theorem write_write (T : α → κ → Option σ) (a : α) (k : κ) (o o' : Option σ) :
    write (write T a k o) a k o'=write T a k o' := by
  funext a' k'
  by_cases he : a'=a ∧ k'=k
  · rw [he.1,he.2,write_self,write_self]
  · rw [write_of_ne o' he,write_of_ne o' he,write_of_ne o he]

omit [DecidableEq α] [DecidableEq κ] [DecidableEq σ] in
/-- A name is in the tables under one place only. -/
theorem Agree.place_unique {a' : α} (h : Agree v l T) (hs : T a k=some s)
    (hs' : T a' k'=some s) : k=k' := by
  obtain ⟨c,hc,hname,hplace,-⟩ := h.entry a k s hs
  obtain ⟨c',hc',hname',hplace',-⟩ := h.entry a' k' s hs'
  have hsame : c=c' := List.inj_on_of_nodup_map h.names hc hc' (hname.trans hname'.symm)
  rw [← hplace,← hplace',hsame]

omit [DecidableEq α] [DecidableEq κ] in
/-- A record that is not owned may go. -/
theorem Agree.forget (h : Agree v l T) (hb : lookup v.name s l=some b)
    (hnone : v.owners b=[]) : Agree v (remove v.name s l) T := by
  refine ⟨nodup_remove h.names s,fun a k s' hs' => ?_,fun c hc => h.listed c (mem_remove.mp hc).1,
    fun c hc => h.once c (mem_remove.mp hc).1⟩
  obtain ⟨c,hc,hname,hplace,howner⟩ := h.entry a k s' hs'
  refine ⟨c,mem_remove.mpr ⟨hc,fun he => ?_⟩,hname,hplace,howner⟩
  have hcb : c=b := List.inj_on_of_nodup_map h.names hc (mem_of_lookup hb)
    (he.trans (key_of_lookup hb).symm)
  rw [hcb,hnone] at howner
  exact List.not_mem_nil howner

omit [DecidableEq α] [DecidableEq κ] [DecidableEq σ] in
/-- A record that is not owned may come in. -/
theorem Agree.fresh (h : Agree v l T) (hnew : v.name b∉l.map v.name) (hnone : v.owners b=[]) :
    Agree v (l++[b]) T := by
  refine ⟨?_,fun a k s hs => ?_,fun c hc => ?_,fun c hc => ?_⟩
  · rw [List.map_append]
    exact List.nodup_append.mpr ⟨h.names,List.nodup_singleton _,fun x hx y hy he =>
      hnew (by rwa [he,List.mem_singleton.mp hy] at hx)⟩
  · obtain ⟨c,hc,hentry⟩ := h.entry a k s hs
    exact ⟨c,List.mem_append_left _ hc,hentry⟩
  · rcases List.mem_append.mp hc with hc | hc
    · exact h.listed c hc
    · rw [List.mem_singleton.mp hc,hnone]
      rintro _ ⟨⟩
  · rcases List.mem_append.mp hc with hc | hc
    · exact h.once c hc
    · rw [List.mem_singleton.mp hc,hnone]
      exact List.nodup_nil

section Replaced

variable (hb : lookup v.name (v.name b') l=some b)
include hb

omit [DecidableEq α] [DecidableEq κ] in
theorem Agree.entry_iff (h : Agree v l T) :
    T a k=some (v.name b') ↔ a∈v.owners b ∧ k=v.place b := by
  have hname : v.name b=v.name b' := key_of_lookup hb
  constructor
  · intro hs
    obtain ⟨c,hc,hcname,hcplace,howner⟩ := h.entry a k _ hs
    obtain rfl : c=b :=
      List.inj_on_of_nodup_map h.names hc (mem_of_lookup hb) (hcname.trans hname.symm)
    exact ⟨howner,hcplace.symm⟩
  · rintro ⟨howner,rfl⟩
    exact (h.listed b (mem_of_lookup hb) a howner).trans (congrArg some hname)

omit [DecidableEq α] [DecidableEq κ] in
/-- A record is replaced, and the entries that name it are those of its new owners. -/
theorem Agree.replaced (h : Agree v l T) {T' : α → κ → Option σ}
    (hown : ∀ a k,T' a k=some (v.name b') ↔ a∈v.owners b' ∧ k=v.place b')
    (hother : ∀ a k s,s≠v.name b' → (T' a k=some s ↔ T a k=some s))
    (honce : (v.owners b').Nodup) : Agree v (replace v.name b' l) T' := by
  refine ⟨by rw [map_key_replace]; exact h.names,fun a k s hs => ?_,fun c hc a ha => ?_,
    fun c hc => ?_⟩
  · by_cases he : s=v.name b'
    · obtain ⟨howner,hk⟩ := (hown a k).mp (he ▸ hs)
      exact ⟨b',mem_replace_self hb,he.symm,hk.symm,howner⟩
    · obtain ⟨c,hc,hcname,hcplace,howner⟩ := h.entry a k s ((hother a k s he).mp hs)
      exact ⟨c,mem_replace_of_ne hc fun hname => he (hcname.symm.trans hname),hcname,hcplace,howner⟩
  · rcases mem_replace_cases hc with rfl | ⟨hc,hne⟩
    · exact (hown a _).mpr ⟨ha,rfl⟩
    · exact (hother a _ _ hne).mpr (h.listed c hc a ha)
  · rcases mem_replace_cases hc with rfl | ⟨hc,-⟩
    · exact honce
    · exact h.once c hc

omit [DecidableEq α] [DecidableEq κ] in
/-- What else of a record changes does not matter. -/
theorem Agree.touch (h : Agree v l T) (hplace : v.place b'=v.place b)
    (howners : v.owners b'=v.owners b) : Agree v (replace v.name b' l) T := by
  refine h.replaced hb (fun a k => ?_) (fun _ _ _ _ => Iff.rfl) ?_
  · rw [howners,hplace]
    exact h.entry_iff hb
  · rw [howners]
    exact h.once b (mem_of_lookup hb)

/-- An owner leaves a record, and its entry goes. -/
theorem Agree.drop (h : Agree v l T) (hentry : T a k=some (v.name b'))
    (hplace : v.place b'=v.place b)
    (howners : v.owners b'=(v.owners b).filter fun a' => a'≠a) :
    Agree v (replace v.name b' l) (write T a k none) := by
  have hk : k=v.place b := ((h.entry_iff hb).mp hentry).2
  refine h.replaced hb (fun a' k' => ?_) (fun a' k' s hs => ?_) ?_
  · rw [howners,hplace,List.mem_filter,decide_eq_true_eq]
    by_cases hhere : a'=a ∧ k'=k
    · rw [hhere.1,hhere.2,write_self]
      exact iff_of_false (by rintro ⟨⟩) fun hand => hand.1.2 rfl
    · rw [write_of_ne none hhere,h.entry_iff hb]
      exact ⟨fun hand => ⟨⟨hand.1,fun he => hhere ⟨he,hand.2.trans hk.symm⟩⟩,hand.2⟩,
        fun hand => ⟨hand.1.1,hand.2⟩⟩
  · by_cases hhere : a'=a ∧ k'=k
    · rw [hhere.1,hhere.2,write_self,hentry]
      exact iff_of_false (by rintro ⟨⟩) fun he => hs (Option.some.inj he).symm
    · rw [write_of_ne none hhere]
  · rw [howners]
    exact (h.once b (mem_of_lookup hb)).filter _

/-- An owner joins a record, under the place of the record. -/
theorem Agree.join (h : Agree v l T) (hfree : T a (v.place b)=none)
    (hplace : v.place b'=v.place b) (howners : v.owners b'=v.owners b++[a]) :
    Agree v (replace v.name b' l) (write T a (v.place b) (some (v.name b'))) := by
  have hnew : a∉v.owners b := fun ha => by
    rw [(h.entry_iff hb).mpr ⟨ha,rfl⟩] at hfree
    cases hfree
  refine h.replaced hb (fun a' k' => ?_) (fun a' k' s hs => ?_) ?_
  · rw [howners,hplace,List.mem_append,List.mem_singleton]
    by_cases hhere : a'=a ∧ k'=v.place b
    · rw [hhere.1,hhere.2,write_self]
      exact iff_of_true rfl ⟨.inr rfl,rfl⟩
    · rw [write_of_ne _ hhere,h.entry_iff hb]
      exact and_congr_left fun hk => (or_iff_left fun he => hhere ⟨he,hk⟩).symm
  · by_cases hhere : a'=a ∧ k'=v.place b
    · rw [hhere.1,hhere.2,write_self,hfree]
      exact iff_of_false (fun he => hs (Option.some.inj he).symm) (by rintro ⟨⟩)
    · rw [write_of_ne _ hhere]
  · rw [howners]
    exact List.nodup_append.mpr ⟨h.once b (mem_of_lookup hb),List.nodup_singleton a,
      fun x hx y hy he => hnew (by rwa [he,List.mem_singleton.mp hy] at hx)⟩

/-- A record that has one owner may change its place, and the entry with it. -/
theorem Agree.move (h : Agree v l T) (hone : v.owners b=[a]) (howners : v.owners b'=[a])
    (hne : v.place b'≠v.place b) (hfree : T a (v.place b')=none) :
    Agree v (replace v.name b' l)
      (write (write T a (v.place b') (some (v.name b'))) a (v.place b) none) := by
  have hentry : ∀ a' k',T a' k'=some (v.name b') ↔ a'=a ∧ k'=v.place b := fun a' k' => by
    rw [h.entry_iff hb,hone,List.mem_singleton]
  refine h.replaced hb (fun a' k' => ?_) (fun a' k' s hs => ?_) ?_
  · rw [howners,List.mem_singleton]
    by_cases hold : a'=a ∧ k'=v.place b
    · rw [hold.1,hold.2,write_self]
      exact iff_of_false (by rintro ⟨⟩) fun hand => hne hand.2.symm
    rw [write_of_ne _ hold]
    by_cases hhere : a'=a ∧ k'=v.place b'
    · rw [hhere.1,hhere.2,write_self]
      exact iff_of_true rfl ⟨rfl,rfl⟩
    · rw [write_of_ne _ hhere]
      exact iff_of_false (fun hs => hold ((hentry a' k').mp hs)) hhere
  · by_cases hold : a'=a ∧ k'=v.place b
    · rw [hold.1,hold.2,write_self,(hentry a _).mpr ⟨rfl,rfl⟩]
      exact iff_of_false (by rintro ⟨⟩) fun he => hs (Option.some.inj he).symm
    rw [write_of_ne _ hold]
    by_cases hhere : a'=a ∧ k'=v.place b'
    · rw [hhere.1,hhere.2,write_self,hfree]
      exact iff_of_false (fun he => hs (Option.some.inj he).symm) (by rintro ⟨⟩)
    · rw [write_of_ne _ hhere]
  · rw [howners]
    exact List.nodup_singleton a

end Replaced

end Projectnelth.TwoSided
