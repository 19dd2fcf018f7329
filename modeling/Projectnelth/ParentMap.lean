import Mathlib

/-!
# Maps to parents

A map gives some elements a parent. A walk goes from an element to its parent and on, and it
either ends or comes to a cycle. It enters the cycle at one place. The links that close the cycles
are those whose parents are such places for the first elements that lead to the cycles; without
them no cycle is left.
-/

namespace Projectnelth.ParentMap

variable {α : Type*} {f g : α → Option α} {a b i u v w x y : α}

/-- The walk from an element comes to another one. -/
def Reach (f : α → Option α) : α → α → Prop := Relation.ReflTransGen fun c m => f c=some m

/-- The walk from an element comes back to it. -/
def OnCycle (f : α → Option α) (v : α) : Prop := Relation.TransGen (fun c m => f c=some m) v v

/-- The walk from an element enters a cycle at another one. -/
def Enters (f : α → Option α) (i u : α) : Prop :=
  OnCycle f u ∧ (i=u ∨ ∃ x,Reach f i x ∧ f x=some u ∧ ¬OnCycle f x)

/-- Two places on one walk. -/
theorem Reach.total (ha : Reach f i a) (hb : Reach f i b) : Reach f a b ∨ Reach f b a :=
  Relation.ReflTransGen.total_of_right_unique
    (fun _ _ _ h h' => Option.some.inj (h.symm.trans h')) ha hb

theorem Reach.head (h : f a=some b) (hb : Reach f b w) : Reach f a w :=
  Relation.ReflTransGen.head h hb

theorem Reach.tail (ha : Reach f i a) (h : f a=some b) : Reach f i b :=
  Relation.ReflTransGen.tail ha h

/-- What is behind a place on the walk is the place itself or behind its parent. -/
theorem Reach.eq_or_next (h : Reach f a w) : a=w ∨ ∃ b,f a=some b ∧ Reach f b w :=
  Relation.ReflTransGen.cases_head h

theorem OnCycle.next (h : OnCycle f v) : ∃ m,f v=some m ∧ Reach f m v :=
  Relation.TransGen.head'_iff.mp h

theorem OnCycle.previous (h : OnCycle f u) : ∃ v,f v=some u ∧ Reach f u v := by
  obtain ⟨v,hreach,hv⟩ := Relation.TransGen.tail'_iff.mp h
  exact ⟨v,hv,hreach⟩

theorem onCycle_of_next (h : f v=some u) (hreach : Reach f u v) : OnCycle f v :=
  Relation.TransGen.head'_iff.mpr ⟨u,h,hreach⟩

/-- A cycle is never left. -/
theorem OnCycle.return (h : OnCycle f v) (hw : Reach f v w) : Reach f w v := by
  induction hw with
  | refl => exact Relation.ReflTransGen.refl
  | @tail b c _ hbc ih =>
    rcases Reach.eq_or_next ih with heq | ⟨c',hc',hreach⟩
    · obtain ⟨m,hm,hreach⟩ := h.next
      rw [← heq,hbc] at hm
      cases hm
      exact hreach
    · rw [hbc] at hc'
      cases hc'
      exact hreach

theorem OnCycle.of_reach (h : OnCycle f v) (hw : Reach f v w) : OnCycle f w := by
  rcases Reach.eq_or_next (h.return hw) with rfl | ⟨m,hm,hreach⟩
  · exact h
  · exact onCycle_of_next hm (Relation.ReflTransGen.trans hreach hw)

theorem OnCycle.reach (hb : OnCycle f b) (hia : Reach f i a) (hib : Reach f i b) :
    Reach f a b := by
  rcases hia.total hib with h | h
  · exact h
  · exact hb.return h

/-- The map, where an element without a parent is its own. -/
def step (f : α → Option α) (a : α) : α := (f a).getD a

theorem OnCycle.periodic (h : OnCycle f v) : v∈Function.periodicPts (step f) := by
  have hwalk : ∀ w,Relation.TransGen (fun c m => f c=some m) v w →
      ∃ n,0 < n ∧ (step f)^[n] v=w := by
    intro w hw
    induction hw with
    | single hb =>
      refine ⟨1,Nat.one_pos,?_⟩
      show (f v).getD v=_
      rw [hb,Option.getD_some]
    | tail _ hbc ih =>
      obtain ⟨n,hn,hstep⟩ := ih
      refine ⟨n+1,Nat.succ_pos n,?_⟩
      rw [Function.iterate_succ_apply',hstep]
      show (f _).getD _=_
      rw [hbc,Option.getD_some]
  obtain ⟨n,hn,hstep⟩ := hwalk v h
  exact ⟨n,hn,hstep⟩

/-- On cycles a parent has one child. -/
theorem OnCycle.unique (hx : OnCycle f x) (hy : OnCycle f y) (hxu : f x=some u)
    (hyu : f y=some u) : x=y := by
  refine (Function.bijOn_periodicPts (step f)).injOn hx.periodic hy.periodic ?_
  show (f x).getD x=(f y).getD y
  rw [hxu,hyu]
  rfl

theorem Enters.reach (h : Enters f i u) : Reach f i u := by
  obtain ⟨_,rfl | ⟨x,hix,hxu,_⟩⟩ := h
  · exact Relation.ReflTransGen.refl
  · exact hix.tail hxu

theorem exists_enters (hreach : Reach f i v) (hv : OnCycle f v) :
    ∃ u,Enters f i u ∧ Reach f u v := by
  induction hreach using Relation.ReflTransGen.head_induction_on with
  | refl => exact ⟨v,⟨hv,Or.inl rfl⟩,Relation.ReflTransGen.refl⟩
  | @head a c hac hcv ih =>
    by_cases ha : OnCycle f a
    · exact ⟨a,⟨ha,Or.inl rfl⟩,Reach.head hac hcv⟩
    obtain ⟨u,⟨hu,hcu⟩,huv⟩ := ih
    refine ⟨u,⟨hu,Or.inr ?_⟩,huv⟩
    rcases hcu with rfl | ⟨x,hcx,hxu,hx⟩
    · exact ⟨a,Relation.ReflTransGen.refl,hac,ha⟩
    · exact ⟨x,hcx.head hac,hxu,hx⟩

/-- A walk enters one cycle, and at one place. -/
theorem Enters.unique (h : Enters f i u) (h' : Enters f i w) : u=w := by
  obtain ⟨hw,hentry⟩ := h'
  obtain ⟨hu,hentry'⟩ := h
  rcases hentry with rfl | ⟨x,hix,hxw,hx⟩
  · rcases hentry' with rfl | ⟨y,hiy,_,hy⟩
    · rfl
    · exact absurd (hw.of_reach hiy) hy
  · rcases hentry' with rfl | ⟨y,hiy,hyu,hy⟩
    · exact absurd (hu.of_reach hix) hx
    · rcases hix.total hiy with hxy | hxy
      · rcases hxy.eq_or_next with rfl | ⟨m,hm,hreach⟩
        · exact Option.some.inj (hyu.symm.trans hxw)
        · rw [hxw] at hm
          cases hm
          exact absurd (hw.of_reach hreach) hy
      · rcases hxy.eq_or_next with rfl | ⟨m,hm,hreach⟩
        · exact Option.some.inj (hyu.symm.trans hxw)
        · rw [hyu] at hm
          cases hm
          exact absurd (hu.of_reach hreach) hx

section Part

variable (hpart : ∀ c m,g c=some m → f c=some m)

include hpart

theorem Reach.of_part (h : Reach g a b) : Reach f a b :=
  Relation.ReflTransGen.mono hpart _ _ h

theorem OnCycle.of_part (h : OnCycle g v) : OnCycle f v :=
  Relation.TransGen.mono hpart _ _ h

/-- A part of the map with one link of a cycle and the way back has the whole cycle. -/
theorem OnCycle.part_of_reach (h : OnCycle g v) (hw : Reach f v w) : OnCycle g w := by
  induction hw with
  | refl => exact h
  | @tail b c _ hbc ih =>
    obtain ⟨m,hm,hreach⟩ := ih.next
    have hmc : m=c := Option.some.inj ((hpart b m hm).symm.trans hbc)
    rw [← hmc]
    exact ih.of_reach (Relation.ReflTransGen.single hm)

end Part

section Closing

variable {f g : ℕ → Option ℕ} {i n u v x : ℕ}

/-- The link of an element to its parent closes a cycle: the parent is where the first element
below a bound that leads to the cycle enters it. -/
def Closes (f : ℕ → Option ℕ) (n v : ℕ) : Prop :=
  OnCycle f v ∧ ∃ u,f v=some u ∧ ∃ i < n,Enters f i u ∧ ∀ j < i,¬Reach f j u

/-- The map without the links that close cycles. -/
structure Cut (f : ℕ → Option ℕ) (n : ℕ) (g : ℕ → Option ℕ) : Prop where
  /-- These links are taken away. -/
  closes : ∀ v,Closes f n v → g v=none
  stays : ∀ v,¬Closes f n v → g v=f v

theorem Cut.part (h : Cut f n g) : ∀ c m,g c=some m → f c=some m := by
  intro c m hc
  by_cases hcloses : Closes f n c
  · rw [h.closes c hcloses] at hc
    cases hc
  · rw [← h.stays c hcloses]
    exact hc

theorem cut_zero (f : ℕ → Option ℕ) : Cut f 0 f :=
  ⟨fun v h => by
    obtain ⟨_,_,_,i,hi,_⟩ := h
    exact absurd hi (Nat.not_lt_zero i),fun _ _ => rfl⟩

/-- A cycle that an element below the bound leads to has a link that closes it. -/
theorem exists_closes (hv : OnCycle f v) (hi : i < n) (hreach : Reach f i v) :
    ∃ w,Closes f n w ∧ Reach f v w := by
  classical
  have hex : ∃ j,Reach f j v := ⟨i,hreach⟩
  have hfirst := Nat.find_spec hex
  have hlt : Nat.find hex < n := (Nat.find_min' hex hreach).trans_lt hi
  obtain ⟨u,henters,huv⟩ := exists_enters hfirst hv
  obtain ⟨w,hwu,huw⟩ := henters.1.previous
  have hvw : Reach f v w := Relation.ReflTransGen.trans (henters.1.return huv) huw
  refine ⟨w,⟨hv.of_reach hvw,u,hwu,Nat.find hex,hlt,henters,fun j hj hju => ?_⟩,hvw⟩
  exact Nat.find_min hex hj (Relation.ReflTransGen.trans hju huv)

/-- Without these links there is no cycle that an element below the bound leads to. -/
theorem Cut.acyclic (h : Cut f n g) (hi : i < n) (hreach : Reach f i v) : ¬OnCycle g v := by
  intro hv
  obtain ⟨w,hw,hvw⟩ := exists_closes (hv.of_part h.part) hi hreach
  obtain ⟨m,hm,_⟩ := (hv.part_of_reach h.part hvw).next
  rw [h.closes w hw] at hm
  cases hm

/-- The first element that leads to a cycle. -/
theorem Closes.mono (h : Closes f n v) (hle : n ≤ i) : Closes f i v := by
  obtain ⟨hv,u,hvu,j,hj,hrest⟩ := h
  exact ⟨hv,u,hvu,j,hj.trans_le hle,hrest⟩

/-- The walk from the next element comes back to itself: there is one more link that closes a
cycle. -/
theorem Cut.found (h : Cut f i g) (hix : Reach g i x) (hxu : g x=some u) (hux : Reach g u x)
    (hentry : i=u ∨ ∃ y,Reach g i y ∧ g y=some u ∧ y≠x) :
    ∀ v,Closes f (i+1) v ↔ Closes f i v ∨ v=x := by
  have hcycle : OnCycle f x := (onCycle_of_next hxu hux).of_part h.part
  have hfxu : f x=some u := h.part x u hxu
  have hu : OnCycle f u := hcycle.of_reach (Relation.ReflTransGen.single hfxu)
  have hiu : Reach f i u := (hix.tail hxu).of_part h.part
  have henters : Enters f i u := by
    refine ⟨hu,hentry.imp_right fun ⟨y,hiy,hyu,hne⟩ => ?_⟩
    refine ⟨y,hiy.of_part h.part,h.part y u hyu,fun hy => hne ?_⟩
    exact hy.unique hcycle (h.part y u hyu) hfxu
  intro v
  constructor
  · rintro ⟨hv,u',hvu',j,hj,henters',hfirst⟩
    rcases Nat.lt_succ_iff_lt_or_eq.mp hj with hj | rfl
    · exact Or.inl ⟨hv,u',hvu',j,hj,henters',hfirst⟩
    · rw [henters'.unique henters] at hvu'
      exact Or.inr (hv.unique hcycle hvu' hfxu)
  · rintro (hv | rfl)
    · exact hv.mono (Nat.le_succ i)
    refine ⟨hcycle,u,hfxu,i,Nat.lt_succ_self i,henters,fun j hj hju => ?_⟩
    -- an earlier element would have taken a link of the cycle away
    exact h.acyclic hj hju (onCycle_of_next hxu hux |>.of_reach
      (Relation.ReflTransGen.single hxu))

/-- The walk from the next element ends: no more link closes a cycle. -/
theorem Cut.ended (h : Cut f i g) (hix : Reach g i x) (hx : g x=none) :
    ∀ v,Closes f (i+1) v ↔ Closes f i v := by
  intro v
  refine ⟨?_,fun hv => hv.mono (Nat.le_succ i)⟩
  rintro ⟨hv,u,hvu,j,hj,henters,hfirst⟩
  rcases Nat.lt_succ_iff_lt_or_eq.mp hj with hj | rfl
  · exact ⟨hv,u,hvu,j,hj,henters,hfirst⟩
  have hjx : Reach f j x := hix.of_part h.part
  have hnext : f x≠none := by
    rcases hjx.total henters.reach with hxu | hux
    · rcases hxu.eq_or_next with rfl | ⟨m,hm,_⟩
      · obtain ⟨m,hm,_⟩ := henters.1.next
        rw [hm]
        exact Option.some_ne_none m
      · rw [hm]
        exact Option.some_ne_none m
    · obtain ⟨m,hm,_⟩ := (henters.1.of_reach hux).next
      rw [hm]
      exact Option.some_ne_none m
  by_cases hcloses : Closes f j x
  · obtain ⟨_,m,hxm,k,hk,henters',_⟩ := hcloses
    have hm : Reach f m u := henters.1.reach (hjx.tail hxm) henters.reach
    exact absurd (Relation.ReflTransGen.trans henters'.reach hm) (hfirst k hk)
  · rw [h.stays x hcloses] at hx
    exact absurd hx hnext

end Closing

end Projectnelth.ParentMap
