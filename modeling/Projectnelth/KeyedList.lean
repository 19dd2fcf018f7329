import Mathlib

/-!
# Lists read by a key

A map from keys to records is a list of records in which no key occurs twice.
A change to one record splits it from the others up to the order, and the keys
stay distinct.
-/

namespace Projectnelth.KeyedList

variable {α κ : Type*} [DecidableEq κ] (key : α → κ)

/-- The record of a key. -/
def lookup (k : κ) (l : List α) : Option α := l.find? fun a => key a=k

/-- The records of the other keys. -/
def remove (k : κ) (l : List α) : List α := l.filter fun a => key a≠k

/-- The record in place of the one of its key. -/
def replace (b : α) (l : List α) : List α := l.map fun a => if key a=key b then b else a

/-- The record comes in, in place of the one of its key. -/
def put (b : α) (l : List α) : List α := remove key (key b) l++[b]

/-- The record is written where the one of its key stands, or comes in at the end. -/
def assign (b : α) (l : List α) : List α :=
  if (lookup key (key b) l).isSome then replace key b l else l++[b]

variable {key} {k : κ} {l : List α} {a b : α}

theorem mem_of_lookup (h : lookup key k l=some a) : a∈l := List.mem_of_find?_eq_some h

theorem key_of_lookup (h : lookup key k l=some a) : key a=k := by
  simpa using List.find?_some h

theorem mem_remove : a∈remove key k l ↔ a∈l ∧ key a≠k := by
  simp only [remove,List.mem_filter,decide_eq_true_eq]

theorem key_ne_of_lookup_none (h : lookup key k l=none) (ha : a∈l) : key a≠k :=
  fun heq => List.find?_eq_none.mp h a ha (decide_eq_true heq)

theorem remove_of_forall_ne (h : ∀ a∈l,key a≠k) : remove key k l=l :=
  List.filter_eq_self.mpr fun a ha => decide_eq_true (h a ha)

theorem replace_of_forall_ne (h : ∀ a∈l,key a≠key b) : replace key b l=l := by
  refine (List.map_congr_left fun a ha => ?_).trans l.map_id
  rw [if_neg (h a ha)]
  rfl

theorem mem_of_mem_replace {c : α} (h : c∈replace key b l) : c=b ∨ c∈l := by
  obtain ⟨a,ha,rfl⟩ := List.mem_map.mp h
  split
  · exact Or.inl rfl
  · exact Or.inr ha

/-- What is in the list after a replacement is the new record or one of another key. -/
theorem mem_replace_cases {c : α} (h : c∈replace key b l) : c=b ∨ (c∈l ∧ key c≠key b) := by
  obtain ⟨a,ha,rfl⟩ := List.mem_map.mp h
  by_cases hkey : key a=key b
  · rw [if_pos hkey]
    exact Or.inl rfl
  · rw [if_neg hkey]
    exact Or.inr ⟨ha,hkey⟩

/-- The new record is there where there was one of its key. -/
theorem mem_replace_self (h : lookup key (key b) l=some a) : b∈replace key b l :=
  List.mem_map.mpr ⟨a,mem_of_lookup h,if_pos (key_of_lookup h)⟩

theorem mem_replace_of_ne (ha : a∈l) (hne : key a≠key b) : a∈replace key b l :=
  List.mem_map.mpr ⟨a,ha,if_neg hne⟩

theorem map_key_replace (b : α) (l : List α) : (replace key b l).map key=l.map key := by
  unfold replace
  rw [List.map_map]
  refine List.map_congr_left fun a _ => ?_
  by_cases h : key a=key b
  · rw [Function.comp_apply,if_pos h,h]
  · rw [Function.comp_apply,if_neg h]

theorem nodup_remove (h : (l.map key).Nodup) (k : κ) : ((remove key k l).map key).Nodup :=
  h.sublist ((List.filter_sublist).map key)

/-- The record of a key stands out of the list. -/
theorem perm_cons_remove (hnodup : (l.map key).Nodup) (h : lookup key k l=some a) :
    l.Perm (a::remove key k l) := by
  induction l with
  | nil => cases h
  | cons c l ih =>
    rw [List.map_cons,List.nodup_cons] at hnodup
    by_cases hc : key c=k
    · have hca : c=a := by simpa [lookup,hc] using h
      subst hca
      have hrest : ∀ a∈l,key a≠k := fun a ha heq =>
        hnodup.1 (hc.trans heq.symm ▸ List.mem_map_of_mem ha)
      have hremove : remove key k (c::l)=l := by
        rw [remove,List.filter_cons_of_neg (by simp [hc])]
        exact remove_of_forall_ne hrest
      rw [hremove]
    · have hlookup : lookup key k l=some a := by simpa [lookup,hc] using h
      have hremove : remove key k (c::l)=c::remove key k l := by
        rw [remove,List.filter_cons_of_pos (by simp [hc])]
        rfl
      rw [hremove]
      exact ((ih hnodup.2 hlookup).cons c).trans (List.Perm.swap a c _)

/-- A replaced record stands out of the list in the place of the old one. -/
theorem replace_perm (hnodup : (l.map key).Nodup) (h : lookup key (key b) l=some a) :
    (replace key b l).Perm (b::remove key (key b) l) := by
  induction l with
  | nil => cases h
  | cons c l ih =>
    rw [List.map_cons,List.nodup_cons] at hnodup
    have hcons : replace key b (c::l)=(if key c=key b then b else c)::replace key b l := rfl
    rw [hcons]
    by_cases hc : key c=key b
    · have hrest : ∀ a∈l,key a≠key b := fun a ha heq =>
        hnodup.1 (hc.trans heq.symm ▸ List.mem_map_of_mem ha)
      have hremove : remove key (key b) (c::l)=l := by
        rw [remove,List.filter_cons_of_neg (by simp [hc])]
        exact remove_of_forall_ne hrest
      rw [if_pos hc,hremove,replace_of_forall_ne hrest]
    · have hlookup : lookup key (key b) l=some a := by simpa [lookup,hc] using h
      have hremove : remove key (key b) (c::l)=c::remove key (key b) l := by
        rw [remove,List.filter_cons_of_pos (by simp [hc])]
        rfl
      rw [if_neg hc,hremove]
      exact ((ih hnodup.2 hlookup).cons c).trans (List.Perm.swap b c _)

/-- A sum over the records without the one of a key. -/
theorem sum_remove (f : α → ℕ) (hnodup : (l.map key).Nodup) (h : lookup key k l=some a) :
    ((remove key k l).map f).sum+f a=(l.map f).sum := by
  rw [((perm_cons_remove hnodup h).map f).sum_eq,List.map_cons,List.sum_cons,Nat.add_comm]

theorem sum_replace (f : α → ℕ) (hnodup : (l.map key).Nodup) (h : lookup key (key b) l=some a) :
    ((replace key b l).map f).sum+f a=(l.map f).sum+f b := by
  rw [((replace_perm hnodup h).map f).sum_eq,List.map_cons,List.sum_cons,
    ← sum_remove f hnodup h]
  omega

theorem countP_replace (p : α → Bool) (hnodup : (l.map key).Nodup)
    (h : lookup key (key b) l=some a) :
    (replace key b l).countP p+(p a).toNat=l.countP p+(p b).toNat := by
  rw [(replace_perm hnodup h).countP_eq,(perm_cons_remove hnodup h).countP_eq,List.countP_cons,
    List.countP_cons]
  cases p a <;> cases p b <;> rfl

/-- A record is found by its key. -/
theorem lookup_of_mem (hnodup : (l.map key).Nodup) (ha : a∈l) : lookup key (key a) l=some a := by
  cases h : lookup key (key a) l with
  | none => exact absurd (decide_eq_true rfl) (List.find?_eq_none.mp h a ha)
  | some b =>
    exact congrArg some
      (List.inj_on_of_nodup_map hnodup (mem_of_lookup h) ha (key_of_lookup h))

/-- What a replaced record has in common with the old one stays. -/
theorem map_replace {β : Type*} (f : α → β) (hnodup : (l.map key).Nodup)
    (h : lookup key (key b) l=some a) (hf : f b=f a) : (replace key b l).map f=l.map f := by
  unfold replace
  rw [List.map_map]
  refine List.map_congr_left fun c hc => ?_
  by_cases hkey : key c=key b
  · obtain rfl := List.inj_on_of_nodup_map hnodup hc (mem_of_lookup h)
      (hkey.trans (key_of_lookup h).symm)
    rw [Function.comp_apply,if_pos hkey,hf]
  · rw [Function.comp_apply,if_neg hkey]

/-- A record is found among the others unless it is the one removed. -/
theorem lookup_remove (k k' : κ) (l : List α) :
    lookup key k (remove key k' l)=if k=k' then none else lookup key k l := by
  induction l with
  | nil => exact (ite_self _).symm
  | cons c l ih =>
    by_cases hc : key c=k'
    · have hremove : remove key k' (c::l)=remove key k' l :=
        List.filter_cons_of_neg (by simp [hc])
      rw [hremove,ih]
      by_cases hk : k=k'
      · rw [if_pos hk,if_pos hk]
      · rw [if_neg hk,if_neg hk]
        have hne : ¬key c=k := fun h => hk (h.symm.trans hc)
        simp [lookup,hne]
    · have hremove : remove key k' (c::l)=c::remove key k' l :=
        List.filter_cons_of_pos (by simp [hc])
      rw [hremove]
      by_cases hck : key c=k
      · have hk : ¬k=k' := fun h => hc (hck.trans h)
        simp [lookup,hck,hk]
      · have hskip : ∀ rest : List α,lookup key k (c::rest)=lookup key k rest := fun rest => by
          simp [lookup,hck]
        rw [hskip,hskip,ih]

/-- A replaced record is found in the place of the old one. -/
theorem lookup_replace (b : α) (k : κ) (l : List α) :
    lookup key k (replace key b l)=
      if key b=k then (lookup key k l).map fun _ => b else lookup key k l := by
  induction l with
  | nil => exact (ite_self _).symm
  | cons c l ih =>
    have hcons : replace key b (c::l)=(if key c=key b then b else c)::replace key b l := rfl
    rw [hcons]
    by_cases hc : key c=key b
    · rw [if_pos hc]
      by_cases hk : key b=k
      · simp [lookup,hk,hc]
      · rw [if_neg hk] at ih ⊢
        simpa [lookup,hk,hc] using ih
    · rw [if_neg hc]
      by_cases hck : key c=k
      · have hk : ¬key b=k := fun h => hc (hck.trans h.symm)
        simp [lookup,hck,hk]
      · have hskip : ∀ rest : List α,lookup key k (c::rest)=lookup key k rest := fun rest => by
          simp [lookup,hck]
        rw [hskip,hskip,ih]

/-- A replaced record goes as the old one would have gone. -/
theorem remove_replace (b : α) (l : List α) :
    remove key (key b) (replace key b l)=remove key (key b) l := by
  induction l with
  | nil => rfl
  | cons c l ih =>
    have hcons : replace key b (c::l)=(if key c=key b then b else c)::replace key b l := rfl
    unfold remove at ih ⊢
    rw [hcons]
    by_cases hc : key c=key b
    · rw [if_pos hc,List.filter_cons_of_neg (by simp),List.filter_cons_of_neg (by simp [hc]),ih]
    · rw [if_neg hc,List.filter_cons_of_pos (by simp [hc]),
        List.filter_cons_of_pos (by simp [hc]),ih]

/-- The last record that has come in is the one of its key. -/
theorem lookup_put (b : α) (k : κ) (l : List α) :
    lookup key k (put key b l)=if k=key b then some b else lookup key k l := by
  have hremove : lookup key k (remove key (key b) l)=_ := lookup_remove k (key b) l
  unfold put
  unfold lookup at hremove ⊢
  rw [List.find?_append,hremove]
  by_cases hk : k=key b
  · subst hk
    rw [if_pos rfl,if_pos rfl]
    simp
  · rw [if_neg hk,if_neg hk]
    simp [Ne.symm hk]

theorem lookup_assign (b : α) (k : κ) (l : List α) :
    lookup key k (assign key b l)=if k=key b then some b else lookup key k l := by
  unfold assign
  split
  · next hsome =>
    rw [lookup_replace]
    by_cases hk : k=key b
    · obtain ⟨a,ha⟩ := Option.isSome_iff_exists.mp hsome
      rw [if_pos hk,if_pos hk.symm,hk,ha,Option.map_some]
    · rw [if_neg hk,if_neg (Ne.symm hk)]
  · next hnone =>
    rw [Option.not_isSome_iff_eq_none] at hnone
    unfold lookup at hnone ⊢
    rw [List.find?_append]
    by_cases hk : k=key b
    · subst hk
      rw [hnone,if_pos rfl]
      simp
    · rw [if_neg hk]
      simp [Ne.symm hk]

theorem mem_of_mem_assign {c : α} (h : c∈assign key b l) : c=b ∨ c∈l := by
  unfold assign at h
  split at h
  · exact mem_of_mem_replace h
  · exact (List.mem_append.mp h).symm.imp_left List.mem_singleton.mp

theorem nodup_assign (h : (l.map key).Nodup) (b : α) : ((assign key b l).map key).Nodup := by
  unfold assign
  split
  · rw [map_key_replace]
    exact h
  · next hnone =>
    rw [Option.not_isSome_iff_eq_none] at hnone
    rw [List.map_append,List.map_singleton]
    refine List.nodup_append.mpr ⟨h,List.nodup_singleton _,fun x hx y hy he => ?_⟩
    obtain ⟨a,ha,rfl⟩ := List.mem_map.mp hx
    exact key_ne_of_lookup_none hnone ha (he.trans (List.mem_singleton.mp hy))

theorem count_remove (k k' : κ) (l : List α) :
    ((remove key k' l).map key).count k=if k=k' then 0 else (l.map key).count k := by
  induction l with
  | nil => exact (ite_self _).symm
  | cons c l ih =>
    by_cases hc : key c=k'
    · have hremove : remove key k' (c::l)=remove key k' l :=
        List.filter_cons_of_neg (by simp [hc])
      rw [hremove,ih,List.map_cons,hc]
      by_cases hk : k=k'
      · rw [if_pos hk,if_pos hk]
      · rw [if_neg hk,if_neg hk,List.count_cons_of_ne (Ne.symm hk)]
    · have hremove : remove key k' (c::l)=c::remove key k' l :=
        List.filter_cons_of_pos (by simp [hc])
      rw [hremove,List.map_cons,List.map_cons,List.count_cons,List.count_cons,ih]
      by_cases hk : k=k'
      · subst hk
        rw [if_pos rfl,if_pos rfl,if_neg (by simpa using hc)]
      · rw [if_neg hk,if_neg hk]

/-- The keys when a record has come in. -/
theorem count_put (b : α) (k : κ) (l : List α) :
    ((put key b l).map key).count k=if k=key b then 1 else (l.map key).count k := by
  unfold put
  rw [List.map_append,List.count_append,count_remove,List.map_singleton]
  by_cases hk : k=key b
  · rw [if_pos hk,if_pos hk,hk,List.count_singleton_self]
  · rw [if_neg hk,if_neg hk,List.count_singleton,if_neg (by simpa using Ne.symm hk),Nat.add_zero]

/-- The count where one element of a list without repetition counts in addition. -/
theorem countP_add_one {β : Type*} {l : List β} {a : β} {p q : β → Bool} (hnodup : l.Nodup) (ha : a∈l)
    (hp : p a=false) (hq : q a=true) (hother : ∀ b,b≠a → q b=p b) :
    l.countP q=l.countP p+1 := by
  induction l with
  | nil => cases ha
  | cons b l ih =>
    obtain ⟨hb,hl⟩ := List.nodup_cons.mp hnodup
    rw [List.countP_cons,List.countP_cons]
    by_cases heq : b=a
    · have hsame : l.countP q=l.countP p :=
        List.countP_congr fun c hc => by rw [hother c (fun h => hb (heq ▸ h ▸ hc))]
      rw [heq,hp,hq,hsame]
      rfl
    · rw [hother b heq,ih hl ((List.mem_cons.mp ha).resolve_left (Ne.symm heq))]
      omega

theorem countP_range {β : Type*} (p : β → Bool) (l : List β) :
    (List.range l.length).countP (fun i => (l[i]?).any p)=l.countP p := by
  induction l with
  | nil => rfl
  | cons b l ih =>
    rw [List.length_cons,List.range_succ_eq_map,List.countP_cons,List.countP_map,List.countP_cons,
      ← ih]
    rfl

end Projectnelth.KeyedList
