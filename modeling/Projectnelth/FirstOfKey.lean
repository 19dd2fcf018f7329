import Mathlib

/-!
# Erasing the first of a key

Elements of a list are to go, and for each of them the first element that has its key is erased.
What is erased are the right elements exactly if these come first among those of their key.
-/

namespace FirstOfKey

variable {α κ : Type*} [DecidableEq κ] {key : α → κ} {l : List α} {x : α}

/-- For each of some elements the first one of its key is erased: what is left, and what was
erased, in order. -/
def eraseAll (key : α → κ) : List α → List α → List α×List α
  | [],l => (l,[])
  | x::xs,l =>
    match l.find? fun y => key y=key x with
    | none => eraseAll key xs l
    | some y =>
      let rest := eraseAll key xs (l.eraseP fun y => key y=key x)
      (rest.1,y::rest.2)

theorem eraseAll_none {xs : List α} (h : (l.find? fun y => key y=key x)=none) :
    eraseAll key (x::xs) l=eraseAll key xs l := by
  simp only [eraseAll,h]

theorem eraseAll_some {xs : List α} {y : α} (h : (l.find? fun y => key y=key x)=some y) :
    eraseAll key (x::xs) l=
      ((eraseAll key xs (l.eraseP fun y => key y=key x)).1,
        y::(eraseAll key xs (l.eraseP fun y => key y=key x)).2) := by
  simp only [eraseAll,h]

theorem find_cons_perm_eraseP {p : α → Bool} {y : α} (h : l.find? p=some y) :
    (y::l.eraseP p).Perm l := by
  induction l with
  | nil => cases h
  | cons a l ih =>
    cases ha : p a with
    | true =>
      rw [List.find?_cons_of_pos ha] at h
      rw [List.eraseP_cons_of_pos ha,Option.some.inj h]
    | false =>
      rw [List.find?_cons_of_neg (by simp [ha])] at h
      rw [List.eraseP_cons_of_neg (by simp [ha])]
      exact (List.Perm.swap a y _).trans ((ih h).cons a)

theorem eraseAll_perm (key : α → κ) (xs l : List α) :
    ((eraseAll key xs l).2++(eraseAll key xs l).1).Perm l := by
  induction xs generalizing l with
  | nil => exact List.Perm.refl l
  | cons x xs ih =>
    unfold eraseAll
    split
    · exact ih l
    · rename_i y hy
      exact ((ih _).cons y).trans (find_cons_perm_eraseP hy)

/-- No more is erased than is to go. -/
theorem length_erased (key : α → κ) (xs l : List α) : (eraseAll key xs l).2.length ≤ xs.length := by
  induction xs generalizing l with
  | nil => exact le_refl 0
  | cons x xs ih =>
    unfold eraseAll
    split
    · exact (ih l).trans (Nat.le_succ _)
    · exact Nat.succ_le_succ (ih _)

/-- An element whose key none of those has that are to go stays in front. -/
theorem eraseAll_cons_of_ne {xs : List α} (h : ∀ y∈xs,key y≠key x) :
    eraseAll key xs (x::l)=(x::(eraseAll key xs l).1,(eraseAll key xs l).2) := by
  induction xs generalizing l with
  | nil => rfl
  | cons y xs ih =>
    have hne : ¬key x=key y := fun heq => h y List.mem_cons_self heq.symm
    have hrest : ∀ y∈xs,key y≠key x := fun z hz => h z (List.mem_cons_of_mem y hz)
    unfold eraseAll
    rw [List.find?_cons_of_neg (by simpa using hne),List.eraseP_cons_of_neg (by simpa using hne)]
    split
    · exact ih hrest
    · rw [ih hrest]

theorem eraseAll_append (xs ys l : List α) :
    eraseAll key (xs++ys) l=
      ((eraseAll key ys (eraseAll key xs l).1).1,
        (eraseAll key xs l).2++(eraseAll key ys (eraseAll key xs l).1).2) := by
  induction xs generalizing l with
  | nil => rfl
  | cons x xs ih =>
    rw [List.cons_append]
    cases h : l.find? fun y => key y=key x with
    | none => rw [eraseAll_none h,eraseAll_none h,ih]
    | some y =>
      rw [eraseAll_some h,eraseAll_some h,ih]
      rfl

/-- Erasing some elements leaves of a kind all but as many. -/
theorem countP_le (key : α → κ) (p : α → Bool) (xs l : List α) :
    l.countP p ≤ (eraseAll key xs l).1.countP p+xs.length := by
  have hperm := (eraseAll_perm key xs l).countP_eq p
  have hlength := length_erased key xs l
  have hcount := List.countP_le_length (p := p) (l := (eraseAll key xs l).2)
  rw [List.countP_append] at hperm
  omega

/-- What is left is what is not to go exactly if what is to go comes first of each key. -/
theorem eraseAll_eq_iff (key : α → κ) (p : α → Bool) (l : List α) :
    (eraseAll key (l.filter p) l).1=l.filter (fun x => !p x) ↔
      l.Pairwise fun x y => key x=key y → p y=true → p x=true := by
  induction l with
  | nil => simp [eraseAll]
  | cons x l ih =>
    rw [List.pairwise_cons]
    cases hx : p x with
    | true =>
      -- the element is the first of its key, so it goes itself
      have herase : (eraseAll key ((x::l).filter p) (x::l)).1=(eraseAll key (l.filter p) l).1 := by
        rw [List.filter_cons_of_pos hx]
        rw [eraseAll_some (List.find?_cons_of_pos (by simp)),List.eraseP_cons_of_pos (by simp)]
      rw [herase,List.filter_cons_of_neg (by simp [hx]),ih]
      simp
    | false =>
      rw [List.filter_cons_of_neg (by simp [hx]),List.filter_cons_of_pos (by simp [hx])]
      by_cases hkey : ∀ y∈l.filter p,key y≠key x
      · rw [eraseAll_cons_of_ne hkey]
        dsimp only
        rw [List.cons_inj_right,ih]
        refine ⟨fun h => ⟨fun y hy heq hpy => ?_,h⟩,fun h => h.2⟩
        exact absurd heq.symm (hkey y (List.mem_filter.mpr ⟨hy,hpy⟩))
      · -- the first one of the key that is to go takes this element instead
        push Not at hkey
        refine ⟨fun heq => ?_,fun h => ?_⟩
        · exfalso
          obtain ⟨y,hy⟩ : ∃ y,(l.filter p).find? (fun y => key y=key x)=some y := by
            obtain ⟨y,hmem,hky⟩ := hkey
            exact Option.isSome_iff_exists.mp (List.find?_isSome.mpr ⟨y,hmem,by simpa using hky⟩)
          obtain ⟨hky,before,after,hsplit,hbefore⟩ := List.find?_eq_some_iff_append.mp hy
          have hkeyy : key y=key x := of_decide_eq_true hky
          have hdiff : ∀ z∈before,key z≠key x := fun z hz => by simpa using hbefore z hz
          rw [hsplit,eraseAll_append,eraseAll_cons_of_ne hdiff] at heq
          dsimp only at heq
          have hstep : (eraseAll key (y::after) (x::(eraseAll key before l).1)).1=
              (eraseAll key after (eraseAll key before l).1).1 := by
            rw [eraseAll_some (List.find?_cons_of_pos (by simpa using hkeyy.symm)),
              List.eraseP_cons_of_pos (by simpa using hkeyy.symm)]
          rw [hstep] at heq
          have hfirst := countP_le key p before l
          have hsecond := countP_le key p after (eraseAll key before l).1
          have htotal : l.countP p=before.length+after.length+1 := by
            rw [List.countP_eq_length_filter,hsplit,List.length_append,List.length_cons]
            omega
          have hnone : (x::l.filter fun x => !p x).countP p=0 := by
            rw [List.countP_cons_of_neg (by simp [hx]),List.countP_eq_zero]
            intro z hz
            simpa using (List.mem_filter.mp hz).2
          rw [heq] at hsecond
          omega
        · obtain ⟨y,hmem,hky⟩ := hkey
          obtain ⟨hy,hpy⟩ := List.mem_filter.mp hmem
          have hcontra := h.1 y hy hky.symm hpy
          cases hcontra

/-- Then what was erased is what was to go. -/
theorem erased_perm {p : α → Bool}
    (h : (eraseAll key (l.filter p) l).1=l.filter (fun x => !p x)) :
    (eraseAll key (l.filter p) l).2.Perm (l.filter p) := by
  have hperm := eraseAll_perm key (l.filter p) l
  rw [h] at hperm
  exact (List.perm_append_right_iff _).mp (hperm.trans (List.filter_append_perm p l).symm)

/-- An element whose key none of those has that are to go is left. -/
theorem mem_left_of_ne {xs : List α} (hx : x∈l) (h : ∀ y∈xs,key y≠key x) :
    x∈(eraseAll key xs l).1 := by
  induction xs generalizing l with
  | nil => exact hx
  | cons y xs ih =>
    have hrest : ∀ y∈xs,key y≠key x := fun z hz => h z (List.mem_cons_of_mem y hz)
    have hne : ¬key x=key y := fun heq => h y List.mem_cons_self heq.symm
    cases hfind : l.find? fun z => key z=key y with
    | none =>
      rw [eraseAll_none hfind]
      exact ih hx hrest
    | some z =>
      rw [eraseAll_some hfind]
      exact ih ((List.mem_eraseP_of_neg (by simpa using hne)).mpr hx) hrest

/-- What is left of fewer elements was left of more. -/
theorem left_eraseP_subset (k : κ) (xs l : List α) :
    (eraseAll key xs (l.eraseP fun y => key y=k)).1 ⊆ (eraseAll key xs l).1 := by
  induction xs generalizing l with
  | nil => exact List.eraseP_subset
  | cons x xs ih =>
    have hcomm : (l.eraseP fun y => key y=k).eraseP (fun y => key y=key x)=
        (l.eraseP fun y => key y=key x).eraseP fun y => key y=k := by
      rcases eq_or_ne k (key x) with rfl | hne
      · rfl
      refine List.eraseP_comm fun a _ => ?_
      by_cases ha : key a=k
      · exact Or.inr (by simpa [ha] using hne)
      · exact Or.inl (by simpa using ha)
    have hstep : ∀ l : List α,
        (eraseAll key (x::xs) l).1=(eraseAll key xs (l.eraseP fun y => key y=key x)).1 := by
      intro l
      cases hfind : l.find? fun y => key y=key x with
      | none =>
        rw [eraseAll_none hfind,List.eraseP_of_forall_not fun a ha => ?_]
        simpa using List.find?_eq_none.mp hfind a ha
      | some y => rw [eraseAll_some hfind]
    rw [hstep,hstep,hcomm]
    exact ih _

/-- When the turn of an element comes, it has not been erased in place of another one. -/
theorem still_there {p : α → Bool} {before after : List α}
    (h : l.filter p=before++x::after) : x∈(eraseAll key before l).1 := by
  induction l generalizing before with
  | nil =>
    rw [List.filter_nil] at h
    exact absurd h.symm (by simp)
  | cons a l ih =>
    cases ha : p a with
    | true =>
      rw [List.filter_cons_of_pos ha] at h
      cases before with
      | nil =>
        rw [List.nil_append] at h
        rw [← (List.cons.inj h).1]
        exact List.mem_cons_self
      | cons b before =>
        rw [List.cons_append] at h
        obtain ⟨rfl,hrest⟩ := List.cons.inj h
        rw [eraseAll_some (List.find?_cons_of_pos (by simp)),List.eraseP_cons_of_pos (by simp)]
        exact ih hrest
    | false =>
      rw [List.filter_cons_of_neg (by simp [ha])] at h
      by_cases hkey : ∀ y∈before,key y≠key a
      · rw [eraseAll_cons_of_ne hkey]
        exact List.mem_cons_of_mem a (ih h)
      -- the first one with the key of `a` erases `a`, and so spares one more of the others
      push Not at hkey
      obtain ⟨y,hy⟩ : ∃ y,before.find? (fun y => key y=key a)=some y := by
        obtain ⟨y,hmem,hky⟩ := hkey
        exact Option.isSome_iff_exists.mp (List.find?_isSome.mpr ⟨y,hmem,by simpa using hky⟩)
      obtain ⟨hky,front,rest,rfl,hfront⟩ := List.find?_eq_some_iff_append.mp hy
      have hkeyy : key a=key y := (of_decide_eq_true hky).symm
      have hdiff : ∀ z∈front,key z≠key a := fun z hz => by simpa using hfront z hz
      have hin := ih h
      rw [eraseAll_append] at hin ⊢
      rw [eraseAll_cons_of_ne hdiff]
      dsimp only at hin ⊢
      rw [eraseAll_some (List.find?_cons_of_pos (by simpa using hkeyy)),
        List.eraseP_cons_of_pos (by simpa using hkeyy)]
      cases hfind : (eraseAll key front l).1.find? fun z => key z=key y with
      | none =>
        rw [eraseAll_none hfind] at hin
        exact hin
      | some z =>
        rw [eraseAll_some hfind] at hin
        exact left_eraseP_subset _ _ _ hin

theorem eraseAll_map (key : α → κ) {β : Type*} (f : β → α) (xs l : List β) :
    eraseAll key (xs.map f) (l.map f)=
      ((eraseAll (fun x => key (f x)) xs l).1.map f,
        (eraseAll (fun x => key (f x)) xs l).2.map f) := by
  induction xs generalizing l with
  | nil => rfl
  | cons x xs ih =>
    rw [List.map_cons]
    have hfind : (l.map f).find? (fun y => key y=key (f x))=
        (l.find? fun y => key (f y)=key (f x)).map f := List.find?_map ..
    have herase : (l.map f).eraseP (fun y => key y=key (f x))=
        (l.eraseP fun y => key (f y)=key (f x)).map f := List.eraseP_map ..
    cases hx : l.find? fun y => key (f y)=key (f x) with
    | none =>
      rw [@eraseAll_none β κ _ (fun x => key (f x)) l x xs hx,eraseAll_none (by rw [hfind,hx]; rfl),ih]
    | some y =>
      rw [@eraseAll_some β κ _ (fun x => key (f x)) l x xs y hx,eraseAll_some (by rw [hfind,hx]; rfl),
        herase,ih]
      rfl

end FirstOfKey
