import Mathlib
import Projectnelth.LoginQueueModel
import Projectnelth.RunInvariant

/-!
# The login queue keeps its order and its places

Whoever waits is told his place, is a session of the world, and is let in after those who came
before him. With ordinary players and a fixed limit the places are never overdrawn, and there
is somebody waiting only while all of them are taken.
-/

namespace Projectnelth.LoginQueueModel

open KeyedList RunInvariant

section Positions

variable {s : ℕ} {l : List ℕ}

theorem takeWhile_dropWhile_tail (s : ℕ) (l : List ℕ) :
    l.takeWhile (·≠s)++(l.dropWhile (·≠s)).tail=l.erase s := by
  induction l with
  | nil => rfl
  | cons x l ih =>
    by_cases hx : x=s
    · rw [List.takeWhile_cons_of_neg (by simpa using hx),
        List.dropWhile_cons_of_neg (by simpa using hx),hx,List.erase_cons_head]
      rfl
    · rw [List.takeWhile_cons_of_pos (by simpa using hx),
        List.dropWhile_cons_of_pos (by simpa using hx),List.erase_cons_tail (by simpa using hx),
        ← ih]
      rfl

theorem dropWhile_ne_nil : (l.dropWhile (·≠s)).isEmpty=false ↔ s∈l := by
  rw [← Bool.not_eq_true,List.isEmpty_iff,List.dropWhile_eq_nil_iff]
  simp

theorem sendPositions_of_notMem (h : s∉l) (n : ℕ) (told : ℕ → ℕ) :
    World.sendPositions l n told s=told s := by
  induction l generalizing n told with
  | nil => rfl
  | cons x l ih =>
    obtain ⟨hx,hl⟩ := not_or.mp (mt List.mem_cons.mpr h)
    exact (ih hl _ _).trans (Function.update_of_ne hx _ _)

theorem map_sendPositions (h : l.Nodup) (n : ℕ) (told : ℕ → ℕ) :
    l.map (World.sendPositions l n told)=List.range' n l.length := by
  induction l generalizing n told with
  | nil => rfl
  | cons x l ih =>
    obtain ⟨hx,hl⟩ := List.nodup_cons.mp h
    rw [List.map_cons,World.sendPositions,sendPositions_of_notMem hx,Function.update_self,ih hl,
      List.length_cons,List.range'_succ]

end Positions

/-- The state of the queue after any run. -/
structure World.Kept (w : World) : Prop where
  accounts : (w.m_sessions.map Prod.fst).Nodup
  /-- Whoever waits is a session of the world. -/
  live : ∀ s∈w.m_QueuedPlayer,s∈w.m_sessions.map Prod.snd
  /-- Nobody is let in twice, or while he waits. -/
  once : (w.initialized++w.m_QueuedPlayer).Nodup
  /-- Those who wait stand in the order in which they came. -/
  order : w.m_QueuedPlayer.Pairwise (·<·)
  /-- Each has been told his position. -/
  told : w.m_QueuedPlayer.map w.told=List.range' 1 w.m_QueuedPlayer.length
  known : (w.m_sessions.map Prod.snd).Nodup
  before : (∀ s∈w.initialized,s < w.next) ∧ ∀ s∈w.m_sessions.map Prod.snd,s < w.next

/-- A place that is free but for the session, which has one if it did not wait. -/
abbrev World.Room (w : World) (found : Bool) : Prop :=
  w.m_playerLimit=0 ∨ w.GetActiveSessionCount-(if found then 0 else 1) < w.m_playerLimit

/-- What `RemoveQueuedPlayer` does: it lets in the first of those that are left, if there is room. -/
structure Removed (w : World) (sess : ℕ) (result : Bool×World) (admitted : List ℕ) : Prop where
  found : result.1=true ↔ sess∈w.m_QueuedPlayer
  first : admitted=if w.Room result.1 then (w.m_QueuedPlayer.erase sess).take 1 else []
  queue : admitted++result.2.m_QueuedPlayer=w.m_QueuedPlayer.erase sess
  initialized : result.2.initialized=w.initialized++admitted
  told : result.2.m_QueuedPlayer.map result.2.told=
    List.range' 1 result.2.m_QueuedPlayer.length
  frame : result.2.m_sessions=w.m_sessions ∧ result.2.m_playerLimit=w.m_playerLimit ∧
    result.2.next=w.next

theorem World.Kept.removed {w : World} (h : w.Kept) (sess : ℕ) :
    ∃ admitted,Removed w sess (w.RemoveQueuedPlayer sess) admitted := by
  have hnodup : w.m_QueuedPlayer.Nodup := (List.nodup_append.mp h.once).2.1
  have herase := takeWhile_dropWhile_tail sess w.m_QueuedPlayer
  have hfound : (!(w.m_QueuedPlayer.dropWhile (·≠sess)).isEmpty)=true ↔
      sess∈w.m_QueuedPlayer := by
    rw [Bool.not_eq_true',dropWhile_ne_nil]
  have hcount : ∀ found : Bool,
      (if !found && w.GetActiveSessionCount≠0 then w.GetActiveSessionCount-1
        else w.GetActiveSessionCount)=w.GetActiveSessionCount-(if found then 0 else 1) := by
    intro found
    cases found with
    | true => rfl
    | false =>
      by_cases hzero : w.GetActiveSessionCount=0
      · simp [hzero]
      · simp [hzero]
  unfold World.RemoveQueuedPlayer
  simp only [hcount]
  generalize hskipped : w.m_QueuedPlayer.takeWhile (·≠sess)=skipped at herase ⊢
  generalize hiter : w.m_QueuedPlayer.dropWhile (·≠sess)=iter at herase hfound ⊢
  have hqueue : (skipped++iter.tail).Nodup := herase ▸ hnodup.erase sess
  split
  · rename_i hnil
    refine ⟨[],hfound,?_,by rw [← herase,hnil]; rfl,(List.append_nil _).symm,rfl,⟨rfl,rfl,rfl⟩⟩
    rw [← herase,hnil]
    exact (ite_self _).symm
  · rename_i pop_sess queue hcons
    by_cases hroom : w.Room (!iter.isEmpty)
    · rw [if_pos hroom]
      refine ⟨[pop_sess],hfound,?_,by rw [← herase,hcons]; rfl,rfl,?_,⟨rfl,rfl,rfl⟩⟩
      · rw [if_pos hroom,← herase,hcons]
        rfl
      · rw [hcons] at hqueue
        exact map_sendPositions hqueue.of_cons 1 w.told
    · rw [if_neg hroom]
      refine ⟨[],hfound,(if_neg hroom).symm,by rw [← herase,hcons]; rfl,(List.append_nil _).symm,
        ?_,⟨rfl,rfl,rfl⟩⟩
      dsimp only
      rw [← hcons,List.map_append,map_sendPositions (List.nodup_append.mp hqueue).2.1]
      have hbefore : skipped.map (World.sendPositions iter.tail (skipped.length+1) w.told)=
          List.range' 1 skipped.length := by
        have hold := h.told
        rw [← List.takeWhile_append_dropWhile (p := (·≠sess)) (l := w.m_QueuedPlayer),hskipped,
          List.map_append,List.length_append,← List.range'_append_1] at hold
        have hfirst := (List.append_inj hold (by simp)).1
        rw [← hfirst]
        refine List.map_congr_left fun s hs => sendPositions_of_notMem (fun hmem => ?_) _ _
        exact (List.nodup_append.mp hqueue).2.2 s hs s hmem rfl
      rw [hbefore,List.length_append,Nat.add_comm skipped.length 1,List.range'_append_1]

section Steps

variable {w w' w'' : World} {sess account : ℕ} {result : Bool×World} {admitted : List ℕ}

theorem Removed.sublist (hr : Removed w sess result admitted) :
    result.2.m_QueuedPlayer.Sublist w.m_QueuedPlayer :=
  (hr.queue ▸ List.sublist_append_right admitted _ :
    result.2.m_QueuedPlayer.Sublist (w.m_QueuedPlayer.erase sess)).trans List.erase_sublist

theorem Removed.admitted_mem (hr : Removed w sess result admitted) {s : ℕ} (hs : s∈admitted) :
    s∈w.m_QueuedPlayer :=
  List.mem_of_mem_erase (hr.queue ▸ List.mem_append_left _ hs)

theorem Removed.notMem (h : w.Kept) (hr : Removed w sess result admitted) :
    sess∉result.2.m_QueuedPlayer := by
  intro hmem
  have hin : sess∈w.m_QueuedPlayer.erase sess := hr.queue ▸ List.mem_append_right _ hmem
  exact (List.nodup_append.mp h.once).2.1.not_mem_erase hin

theorem World.Kept.lt_next (h : w.Kept) {s : ℕ} (hs : s∈w.m_QueuedPlayer) : s < w.next :=
  h.before.2 s (h.live s hs)

/-- Taking a session out of the queue keeps it. -/
theorem Removed.kept (h : w.Kept) (hr : Removed w sess result admitted) : result.2.Kept := by
  obtain ⟨hsessions,_,hnext⟩ := hr.frame
  refine ⟨hsessions ▸ h.accounts,fun s hs => hsessions ▸ h.live s (hr.sublist.subset hs),?_,
    h.order.sublist hr.sublist,hr.told,hsessions ▸ h.known,?_,?_⟩
  · rw [hr.initialized,List.append_assoc,hr.queue]
    exact h.once.sublist (List.erase_sublist.append_left _)
  · rw [hr.initialized,hnext]
    intro s hs
    rcases List.mem_append.mp hs with hold | hnew
    · exact h.before.1 s hold
    · exact h.lt_next (hr.admitted_mem hnew)
  · rw [hsessions,hnext]
    exact h.before.2

/-- What has happened between two states: only new sessions came into the queue, and whoever was
let in out of it came before those who still wait. -/
structure Advanced (w w' : World) (admitted : List ℕ) : Prop where
  initialized : w'.initialized=w.initialized++admitted
  waiting : ∀ q∈w'.m_QueuedPlayer,q∈w.m_QueuedPlayer ∨ w.next ≤ q
  first : ∀ s∈admitted,w.next ≤ s ∨ (s∈w.m_QueuedPlayer ∧ ∀ q∈w'.m_QueuedPlayer,s < q)
  next : w.next ≤ w'.next

theorem Advanced.refl (w : World) : Advanced w w [] :=
  ⟨(List.append_nil _).symm,fun _ => Or.inl,nofun,le_rfl⟩

theorem Advanced.trans {later : List ℕ} (h : w.Kept) (hw : Advanced w w' admitted)
    (hw' : Advanced w' w'' later) : Advanced w w'' (admitted++later) := by
  refine ⟨by rw [hw'.initialized,hw.initialized,List.append_assoc],fun q hq => ?_,fun s hs => ?_,
    hw.next.trans hw'.next⟩
  · rcases hw'.waiting q hq with hold | hnew
    · exact hw.waiting q hold
    · exact Or.inr (hw.next.trans hnew)
  rcases List.mem_append.mp hs with hfirst | hlater
  · refine (hw.first s hfirst).imp_right fun ⟨hmem,hbefore⟩ => ⟨hmem,fun q hq => ?_⟩
    rcases hw'.waiting q hq with hold | hnew
    · exact hbefore q hold
    · exact (h.lt_next hmem).trans_le (hw.next.trans hnew)
  · rcases hw'.first s hlater with hnew | ⟨hmem,hbefore⟩
    · exact Or.inl (hw.next.trans hnew)
    · exact (hw.waiting s hmem).symm.imp_right fun hold => ⟨hold,hbefore⟩

theorem Removed.advanced (h : w.Kept) (hr : Removed w sess result admitted) :
    Advanced w result.2 admitted := by
  refine ⟨hr.initialized,fun q hq => Or.inl (hr.sublist.subset hq),
    fun s hs => Or.inr ⟨hr.admitted_mem hs,?_⟩,hr.frame.2.2.ge⟩
  have horder : (admitted++result.2.m_QueuedPlayer).Pairwise (·<·) :=
    hr.queue ▸ h.order.sublist List.erase_sublist
  exact fun q hq => (List.pairwise_append.mp horder).2.2 s hs q hq

/-- A session of the world comes in behind the others. -/
theorem World.Kept.addQueued (h : w.Kept) (hlive : sess∈w.m_sessions.map Prod.snd)
    (hlast : ∀ s∈w.m_QueuedPlayer,s < sess) (hnot : sess∉w.initialized) :
    (w.AddQueuedPlayer sess).Kept := by
  have hself : sess∉w.m_QueuedPlayer := fun hmem => (hlast sess hmem).false
  refine ⟨h.accounts,fun s hs => ?_,?_,?_,?_,h.known,h.before⟩
  · rcases List.mem_append.mp hs with hold | hnew
    · exact h.live s hold
    · exact List.mem_singleton.mp hnew ▸ hlive
  · change (w.initialized++(w.m_QueuedPlayer++[sess])).Nodup
    rw [← List.append_assoc]
    refine h.once.append (List.nodup_singleton _) (List.disjoint_singleton.mpr fun hmem => ?_)
    exact (List.mem_append.mp hmem).elim hnot hself
  · refine List.pairwise_append.mpr ⟨h.order,List.pairwise_singleton _ _,fun s hs t ht => ?_⟩
    exact List.mem_singleton.mp ht ▸ hlast s hs
  · have hposition : World.GetQueuePos { w with m_QueuedPlayer := w.m_QueuedPlayer++[sess] } sess=
        w.m_QueuedPlayer.length+1 := by
      simp [World.GetQueuePos,List.idxOf_append,hself]
    have hbefore : w.m_QueuedPlayer.map (Function.update w.told sess
        (w.m_QueuedPlayer.length+1))=List.range' 1 w.m_QueuedPlayer.length := by
      rw [← h.told]
      refine List.map_congr_left fun s hs => Function.update_of_ne (fun heq => ?_) _ _
      exact hself (heq ▸ hs)
    change (w.m_QueuedPlayer++[sess]).map (Function.update w.told sess
      (World.GetQueuePos { w with m_QueuedPlayer := w.m_QueuedPlayer++[sess] } sess))=
        List.range' 1 (w.m_QueuedPlayer++[sess]).length
    rw [hposition,List.map_append,hbefore,List.map_singleton,Function.update_self,
      List.length_append,List.length_singleton,← List.range'_append_1,
      Nat.add_comm w.m_QueuedPlayer.length 1]
    rfl

theorem World.Kept.initializeSession (h : w.Kept) (hnot : sess∉w.initialized++w.m_QueuedPlayer)
    (hnext : sess < w.next) : (w.InitializeSession sess).Kept := by
  refine ⟨h.accounts,h.live,?_,h.order,h.told,h.known,fun s hs => ?_,h.before.2⟩
  · change (w.initialized++[sess]++w.m_QueuedPlayer).Nodup
    rw [List.append_assoc,List.singleton_append,List.nodup_middle]
    exact List.nodup_cons.mpr ⟨hnot,h.once⟩
  · rcases List.mem_append.mp hs with hold | hnew
    · exact h.before.1 s hold
    · exact List.mem_singleton.mp hnew ▸ hnext

theorem World.Kept.put (h : w.Kept) (hnext : sess < w.next)
    (hfresh : ∀ s∈w.m_sessions.map Prod.snd,s < sess)
    (hgone : ∀ a∈w.m_sessions,a.1=account → a.2∉w.m_QueuedPlayer) :
    World.Kept { w with m_sessions := put Prod.fst (account,sess) w.m_sessions } := by
  have hput : (KeyedList.put Prod.fst (account,sess) w.m_sessions).map Prod.snd=
      (remove Prod.fst account w.m_sessions).map Prod.snd++[sess] :=
    List.map_append
  have hsub : ((remove Prod.fst account w.m_sessions).map Prod.snd).Sublist
      (w.m_sessions.map Prod.snd) :=
    List.filter_sublist.map _
  refine ⟨List.nodup_iff_count_le_one.mpr fun k => ?_,fun s hs => ?_,h.once,h.order,h.told,?_,
    h.before.1,fun s hs => ?_⟩
  · rw [count_put]
    split
    · exact le_rfl
    · exact List.nodup_iff_count_le_one.mp h.accounts k
  · obtain ⟨a,ha,rfl⟩ := List.mem_map.mp (h.live s hs)
    rw [hput]
    exact List.mem_append_left _ (List.mem_map_of_mem
      (mem_remove.mpr ⟨ha,fun hkey => hgone a ha hkey hs⟩))
  · rw [hput]
    refine (h.known.sublist hsub).append (List.nodup_singleton _)
      (List.disjoint_singleton.mpr fun hmem => ?_)
    exact (hfresh sess (hsub.subset hmem)).false
  · rw [hput] at hs
    rcases List.mem_append.mp hs with hold | hnew
    · exact h.before.2 s (hsub.subset hold)
    · exact List.mem_singleton.mp hnew ▸ hnext

/-- What `enter` does: the session waits behind the others or is let in. -/
structure Entered (sess : ℕ) (w w' : World) (admitted : List ℕ) : Prop where
  initialized : w'.initialized=w.initialized++admitted
  waiting : ∀ q∈w'.m_QueuedPlayer,q∈w.m_QueuedPlayer ∨ q=sess
  new : ∀ s∈admitted,s=sess
  next : w'.next=w.next

theorem World.Kept.enter (h : w.Kept) (hnext : sess < w.next)
    (hfresh : (∀ s∈w.initialized,s < sess) ∧ ∀ s∈w.m_sessions.map Prod.snd,s < sess)
    (hgone : ∀ a∈w.m_sessions,a.1=account → a.2∉w.m_QueuedPlayer)
    (decrease_session player recently : Bool) :
    (w.enter sess account decrease_session player recently).Kept ∧
      ∃ admitted,Entered sess w (w.enter sess account decrease_session player recently)
        admitted := by
  have hkept := h.put hnext hfresh.2 hgone
  have hlast : ∀ s∈w.m_QueuedPlayer,s < sess := fun s hs => hfresh.2 s (h.live s hs)
  have hnot : sess∉w.initialized := fun hmem => (hfresh.1 sess hmem).false
  unfold World.enter
  dsimp only
  generalize (_ && _ : Bool)=waits
  cases waits with
  | true =>
    refine ⟨hkept.addQueued ?_ hlast hnot,[],(List.append_nil _).symm,fun q hq => ?_,nofun,rfl⟩
    · exact List.mem_map.mpr ⟨(account,sess),List.mem_append_right _ (List.mem_singleton_self _),rfl⟩
    · exact (List.mem_append.mp hq).imp_right List.mem_singleton.mp
  | false =>
    refine ⟨hkept.initializeSession (fun hmem => ?_) hnext,[sess],rfl,fun q => Or.inl,
      fun s => List.mem_singleton.mp,rfl⟩
    exact (List.mem_append.mp hmem).elim hnot fun hq => (hlast sess hq).false

/-- The new session comes after all that have been let in or wait. -/
theorem Advanced.enter (h : w.Kept) (hw : Advanced w w' admitted) {later : List ℕ}
    (he : Entered w.next w' w'' later) : Advanced w w'' (admitted++later) := by
  refine ⟨by rw [he.initialized,hw.initialized,List.append_assoc],fun q hq => ?_,fun s hs => ?_,
    hw.next.trans_eq he.next.symm⟩
  · rcases he.waiting q hq with hold | hnew
    · exact hw.waiting q hold
    · exact Or.inr hnew.ge
  rcases List.mem_append.mp hs with hfirst | hnew
  · refine (hw.first s hfirst).imp_right fun ⟨hmem,hbefore⟩ => ⟨hmem,fun q hq => ?_⟩
    rcases he.waiting q hq with hold | hnew
    · exact hbefore q hold
    · exact (h.lt_next hmem).trans_eq hnew.symm
  · exact Or.inl (he.new s hnew).ge

theorem World.Kept.numbered (h : w.Kept) : World.Kept { w with next := w.next+1 } :=
  ⟨h.accounts,h.live,h.once,h.order,h.told,h.known,
    fun s hs => (h.before.1 s hs).trans (Nat.lt_succ_self _),
    fun s hs => (h.before.2 s hs).trans (Nat.lt_succ_self _)⟩

theorem World.Kept.addSession (h : w.Kept) (account : ℕ) (loading player recently : Bool) :
    (w.AddSession_ account loading player recently).Kept ∧
      ∃ admitted,Advanced w (w.AddSession_ account loading player recently) admitted := by
  have hnext := h.numbered
  have hadvanced : Advanced w { w with next := w.next+1 } [] :=
    ⟨(List.append_nil _).symm,fun _ => Or.inl,nofun,Nat.le_succ _⟩
  unfold World.AddSession_
  dsimp only
  cases hlookup : lookup Prod.fst account w.m_sessions with
  | none =>
    obtain ⟨hkept,later,hentered⟩ := hnext.enter (Nat.lt_succ_self _)
      h.before (fun a ha hkey => absurd hkey (key_ne_of_lookup_none hlookup ha)) true player
      recently
    exact ⟨hkept,_,hadvanced.enter h hentered⟩
  | some old =>
    cases loading with
    | true => exact ⟨hnext,[],hadvanced⟩
    | false =>
      obtain ⟨admitted,hr⟩ := hnext.removed old.2
      obtain ⟨hsessions,_,hrnext⟩ := hr.frame
      have hkept := hr.kept hnext
      have hnot := hr.notMem hnext
      have hremoved := hadvanced.trans h (hr.advanced hnext)
      have hbefore : ∀ s∈w.initialized++admitted,s < w.next := fun s hs =>
        (List.mem_append.mp hs).elim (h.before.1 s) fun hnew => h.lt_next (hr.admitted_mem hnew)
      rw [← hr.initialized] at hbefore
      clear hr
      dsimp only at hsessions hrnext ⊢
      generalize World.RemoveQueuedPlayer { w with next := w.next+1 } old.2=removed at *
      have hgone : ∀ a∈removed.2.m_sessions,a.1=account → a.2∉removed.2.m_QueuedPlayer := by
        intro a ha hkey
        obtain rfl := List.inj_on_of_nodup_map h.accounts (hsessions ▸ ha) (mem_of_lookup hlookup)
          (hkey.trans (key_of_lookup hlookup).symm)
        exact hnot
      obtain ⟨hall,later,hentered⟩ := hkept.enter
        ((Nat.lt_succ_self w.next).trans_eq hrnext.symm) ⟨hbefore,hsessions ▸ h.before.2⟩ hgone
        (!removed.1) player recently
      exact ⟨hall,_,hremoved.enter h hentered⟩

theorem World.Kept.removeInactive (h : w.Kept) (account : ℕ) :
    (w.removeInactive account).Kept ∧
      ∃ admitted,Advanced w (w.removeInactive account) admitted := by
  unfold World.removeInactive
  cases hlookup : lookup Prod.fst account w.m_sessions with
  | none => exact ⟨h,[],Advanced.refl w⟩
  | some old =>
    obtain ⟨admitted,hr⟩ := h.removed old.2
    have hfirst := hr.kept h
    obtain ⟨later,hr'⟩ := hfirst.removed old.2
    have hsecond := hr'.kept hfirst
    have hsessions := hr'.frame.1.trans hr.frame.1
    have hadvanced := (hr.advanced h).trans h (hr'.advanced hfirst)
    dsimp only
    generalize (w.RemoveQueuedPlayer old.2).2.RemoveQueuedPlayer old.2=removed at *
    refine ⟨⟨nodup_remove hsecond.accounts account,fun s hs => ?_,hsecond.once,hsecond.order,
      hsecond.told,hsecond.known.sublist (List.filter_sublist.map _),hsecond.before.1,
      fun s hs => hsecond.before.2 s ((List.filter_sublist.map _).subset hs)⟩,_,
      hadvanced.initialized,hadvanced.waiting,hadvanced.first,hadvanced.next⟩
    obtain ⟨a,ha,rfl⟩ := List.mem_map.mp (hsecond.live s hs)
    refine List.mem_map_of_mem (mem_remove.mpr ⟨ha,fun hkey => ?_⟩)
    obtain rfl := List.inj_on_of_nodup_map h.accounts (hsessions ▸ ha) (mem_of_lookup hlookup)
      (hkey.trans (key_of_lookup hlookup).symm)
    exact hr'.notMem hfirst hs

/-- One step keeps the queue, and lets nobody in before those who came earlier. -/
theorem World.Kept.step (h : w.Kept) (a : Action) :
    (w.step a).Kept ∧ ∃ admitted,Advanced w (w.step a) admitted := by
  cases a with
  | addSession account loading player recently => exact h.addSession account loading player recently
  | removeInactive account => exact h.removeInactive account
  | setPlayerAmountLimit limit =>
    exact ⟨⟨h.accounts,h.live,h.once,h.order,h.told,h.known,h.before⟩,[],
      (List.append_nil _).symm,fun _ => Or.inl,nofun,le_rfl⟩
  | kickAll =>
    refine ⟨⟨h.accounts,nofun,?_,List.Pairwise.nil,rfl,h.known,h.before⟩,[],
      (List.append_nil _).symm,nofun,nofun,le_rfl⟩
    exact h.once.sublist ((List.nil_sublist _).append_left _)

theorem World.Kept.run (h : w.Kept) (as : List Action) :
    (RunInvariant.run World.step w as).Kept ∧
      ∃ admitted,Advanced w (RunInvariant.run World.step w as) admitted := by
  induction as generalizing w with
  | nil => exact ⟨h,[],Advanced.refl w⟩
  | cons a as ih =>
    obtain ⟨hkept,admitted,hadvanced⟩ := h.step a
    obtain ⟨hrun,later,hlater⟩ := ih hkept
    exact ⟨hrun,_,hadvanced.trans h hlater⟩

theorem start_kept (limit : ℕ) : (World.start limit).Kept :=
  ⟨List.nodup_nil,nofun,List.nodup_nil,List.Pairwise.nil,rfl,List.nodup_nil,nofun,nofun⟩

/-- The count of the active sessions does not wrap around. -/
theorem World.Kept.length_le (h : w.Kept) : w.m_QueuedPlayer.length ≤ w.m_sessions.length := by
  have hqueue : w.m_QueuedPlayer.Nodup := (List.nodup_append.mp h.once).2.1
  exact (hqueue.subperm h.live).length_le.trans_eq (List.length_map _)

/-- Whatever happens to the sessions, the queue is kept, and whoever waits at some time and has
been let in later came before all that are then waiting. -/
theorem queue_lets_in_in_order (limit : ℕ) (as bs : List Action) :
    let w := RunInvariant.run World.step (World.start limit) as
    let w' := RunInvariant.run World.step w bs
    w'.Kept ∧ w'.m_QueuedPlayer.length ≤ w'.m_sessions.length ∧
      ∀ s∈w.m_QueuedPlayer,s∈w'.initialized → ∀ q∈w'.m_QueuedPlayer,s < q := by
  intro w w'
  have hw : w.Kept := ((start_kept limit).run as).1
  obtain ⟨hkept,admitted,hadvanced⟩ := hw.run bs
  refine ⟨hkept,hkept.length_le,fun s hs hlet => ?_⟩
  have hlet : s∈w.initialized++admitted := hadvanced.initialized ▸ hlet
  have hnot : s∉w.initialized := fun hmem =>
    (List.nodup_append.mp hw.once).2.2 s hmem s hs rfl
  rcases hadvanced.first s ((List.mem_append.mp hlet).resolve_left hnot) with hnew | hold
  · exact absurd (hw.lt_next hs) (not_lt.mpr hnew)
  · exact hold.2

end Steps

section Places

variable {w : World} {sess account : ℕ} {result : Bool×World} {admitted : List ℕ}

/-- The sessions over the limit are those that wait. -/
def World.Filled (w : World) : Prop :=
  w.m_QueuedPlayer.length=w.m_sessions.length-w.m_playerLimit

theorem Removed.length (hr : Removed w sess result admitted) :
    admitted.length+result.2.m_QueuedPlayer.length=
      w.m_QueuedPlayer.length-(if result.1 then 1 else 0) := by
  rw [← List.length_append,hr.queue]
  by_cases hmem : sess∈w.m_QueuedPlayer
  · rw [List.length_erase_of_mem hmem,if_pos (hr.found.mpr hmem)]
  · rw [List.erase_of_not_mem hmem,if_neg (mt hr.found.mp hmem),Nat.sub_zero]

/-- A session that goes makes room for one that waits. -/
theorem Removed.length_of_filled (hr : Removed w sess result admitted) (h : w.Filled)
    (hlimit : 0 < w.m_playerLimit) :
    result.2.m_QueuedPlayer.length=w.m_QueuedPlayer.length-1 := by
  have hlength := hr.length
  have hadmitted := congrArg List.length hr.first
  rw [apply_ite List.length,List.length_take,← hr.queue,List.length_append,hlength] at hadmitted
  unfold World.Filled at h
  unfold World.Room World.GetActiveSessionCount at hadmitted
  cases hfound : result.1 <;> rw [hfound] at hlength hadmitted <;>
    simp only [if_true,if_false,Bool.false_eq_true,List.length_nil] at hlength hadmitted <;>
    split at hadmitted <;> omega

/-- Its place is given away only once. -/
theorem Removed.length_of_gone (hr : Removed w sess result admitted) (hnot : sess∉w.m_QueuedPlayer)
    (h : w.m_QueuedPlayer.length=w.m_sessions.length-w.m_playerLimit-1)
    (hlimit : 0 < w.m_playerLimit) :
    result.2.m_QueuedPlayer.length=w.m_QueuedPlayer.length := by
  have hlength := hr.length
  have hadmitted := congrArg List.length hr.first
  have hfound : result.1=false := Bool.eq_false_iff.mpr (mt hr.found.mp hnot)
  rw [apply_ite List.length,List.length_take,← hr.queue,List.length_append,hlength] at hadmitted
  rw [hfound] at hlength hadmitted
  unfold World.Room World.GetActiveSessionCount at hadmitted
  simp only [if_false,Bool.false_eq_true,List.length_nil] at hlength hadmitted
  split at hadmitted <;> omega

theorem length_put_of_none (hlookup : lookup Prod.fst account w.m_sessions=none) :
    (put Prod.fst (account,sess) w.m_sessions).length=w.m_sessions.length+1 := by
  have hrest : remove Prod.fst account w.m_sessions=w.m_sessions :=
    remove_of_forall_ne fun a ha => key_ne_of_lookup_none hlookup ha
  rw [put,List.length_append,List.length_singleton,hrest]

theorem length_remove_of_some {old : ℕ×ℕ} (h : w.Kept)
    (hlookup : lookup Prod.fst account w.m_sessions=some old) :
    (remove Prod.fst account w.m_sessions).length+1=w.m_sessions.length :=
  (perm_cons_remove h.accounts hlookup).length_eq.symm

theorem length_put_of_some {old : ℕ×ℕ} (h : w.Kept)
    (hlookup : lookup Prod.fst account w.m_sessions=some old) :
    (put Prod.fst (account,sess) w.m_sessions).length=w.m_sessions.length := by
  rw [put,List.length_append,List.length_singleton,length_remove_of_some h hlookup]

/-- An ordinary session waits when the sessions before it have reached the limit. -/
theorem enter_spec (w : World) (sess account : ℕ) (decrease_session : Bool)
    (hlimit : 0 < w.m_playerLimit) :
    (w.enter sess account decrease_session true false).m_sessions=
        put Prod.fst (account,sess) w.m_sessions ∧
      (w.enter sess account decrease_session true false).m_playerLimit=w.m_playerLimit ∧
      (w.enter sess account decrease_session true false).m_QueuedPlayer.length=
        w.m_QueuedPlayer.length+
          (if w.m_playerLimit ≤ (put Prod.fst (account,sess) w.m_sessions).length-
            (if decrease_session then 1 else 0) then 1 else 0) := by
  have hsessions : ∀ n : ℕ,(if decrease_session then n-1 else n)=
      n-(if decrease_session then 1 else 0) := by
    cases decrease_session <;> exact fun _ => rfl
  unfold World.enter World.GetActiveAndQueuedSessionCount
  simp only [hsessions,gt_iff_lt,ge_iff_le,hlimit,decide_true,Bool.true_and,Bool.and_true,
    Bool.not_false,decide_eq_true_eq]
  generalize (if decrease_session=true then 1 else 0)=leaving
  split_ifs
  · exact ⟨rfl,rfl,List.length_append⟩
  · exact ⟨rfl,rfl,rfl⟩

/-- A player who comes neither past the limit nor back from a short disconnection. -/
def Ordinary : Action → Prop
  | .addSession _ _ player recently => player=true ∧ recently=false
  | .removeInactive _ => True
  | .setPlayerAmountLimit _ => False
  | .kickAll => False

theorem World.Filled.addSession (h : w.Filled) (hkept : w.Kept) (hlimit : 0 < w.m_playerLimit)
    (account : ℕ) (loading : Bool) :
    (w.AddSession_ account loading true false).Filled ∧
      (w.AddSession_ account loading true false).m_playerLimit=w.m_playerLimit := by
  unfold World.Filled at h ⊢
  unfold World.AddSession_
  dsimp only
  cases hlookup : lookup Prod.fst account w.m_sessions with
  | none =>
    obtain ⟨hsessions,hsame,hqueue⟩ := enter_spec { w with next := w.next+1 } w.next account true
      hlimit
    have hput : (put Prod.fst (account,w.next) w.m_sessions).length=_ := length_put_of_none hlookup
    dsimp only at hsessions hsame hqueue ⊢
    rw [hput,if_pos rfl] at hqueue
    rw [hsessions,hsame,hqueue,hput]
    refine ⟨?_,rfl⟩
    split <;> omega
  | some old =>
    cases loading with
    | true => exact ⟨h,rfl⟩
    | false =>
      have hnext := hkept.numbered
      obtain ⟨admitted,hr⟩ := hnext.removed old.2
      have hlength := hr.length_of_filled h hlimit
      have hfound : (World.RemoveQueuedPlayer { w with next := w.next+1 } old.2).1=true →
          0 < w.m_QueuedPlayer.length := fun hone => List.length_pos_of_mem (hr.found.mp hone)
      obtain ⟨hrsessions,hrlimit,_⟩ := hr.frame
      have hput : (put Prod.fst (account,w.next) w.m_sessions).length=_ :=
        length_put_of_some hkept hlookup
      clear hr
      dsimp only at hlength hrsessions hrlimit ⊢
      generalize World.RemoveQueuedPlayer { w with next := w.next+1 } old.2=removed at *
      obtain ⟨hsessions,hsame,hqueue⟩ := enter_spec removed.2 w.next account (!removed.1)
        (hlimit.trans_eq hrlimit.symm)
      rw [hrsessions,hput,hrlimit,hlength] at hqueue
      rw [if_neg Bool.false_ne_true,hsessions,hsame,hqueue,hrsessions,hput,hrlimit]
      refine ⟨?_,rfl⟩
      cases hone : removed.1 with
      | true =>
        have hpos := hfound hone
        rw [Bool.not_true,if_neg Bool.false_ne_true]
        split <;> omega
      | false =>
        rw [Bool.not_false,if_pos rfl]
        split <;> omega

theorem World.Filled.removeInactive (h : w.Filled) (hkept : w.Kept) (hlimit : 0 < w.m_playerLimit)
    (account : ℕ) :
    (w.removeInactive account).Filled ∧
      (w.removeInactive account).m_playerLimit=w.m_playerLimit := by
  unfold World.removeInactive
  cases hlookup : lookup Prod.fst account w.m_sessions with
  | none => exact ⟨h,rfl⟩
  | some old =>
    obtain ⟨admitted,hr⟩ := hkept.removed old.2
    obtain ⟨later,hr'⟩ := (hr.kept hkept).removed old.2
    have hfirst := hr.length_of_filled h hlimit
    have hlimits := hr'.frame.2.1.trans hr.frame.2.1
    have hsessions := hr'.frame.1.trans hr.frame.1
    have hgone : (w.RemoveQueuedPlayer old.2).2.m_QueuedPlayer.length=
        (w.RemoveQueuedPlayer old.2).2.m_sessions.length-
          (w.RemoveQueuedPlayer old.2).2.m_playerLimit-1 := by
      rw [hfirst,hr.frame.1,hr.frame.2.1,h]
    have hsecond := hr'.length_of_gone (hr.notMem hkept) hgone (hlimit.trans_eq hr.frame.2.1.symm)
    have hremove := length_remove_of_some hkept hlookup
    refine ⟨?_,hlimits⟩
    unfold World.Filled at h ⊢
    dsimp only
    rw [hsecond,hfirst,hlimits,hsessions]
    omega

theorem World.Filled.step (h : w.Filled) (hkept : w.Kept) (hlimit : 0 < w.m_playerLimit)
    {a : Action} (ha : Ordinary a) :
    (w.step a).Filled ∧ (w.step a).m_playerLimit=w.m_playerLimit := by
  cases a with
  | addSession account loading player recently =>
    obtain ⟨rfl,rfl⟩ := ha
    exact h.addSession hkept hlimit account loading
  | removeInactive account => exact h.removeInactive hkept hlimit account
  | setPlayerAmountLimit limit => exact ha.elim
  | kickAll => exact ha.elim

/-- With ordinary players and a fixed limit the places are never overdrawn, and nobody waits while
one of them is free. -/
theorem places_are_filled (limit : ℕ) (hlimit : 0 < limit) (as : List Action)
    (has : ∀ a∈as,Ordinary a) :
    let w := RunInvariant.run World.step (World.start limit) as
    w.m_playerLimit=limit ∧ w.GetActiveSessionCount ≤ limit ∧
      (w.m_QueuedPlayer≠[] → w.GetActiveSessionCount=limit) := by
  intro w
  obtain ⟨-,hfilled,hsame⟩ : w.Kept ∧ w.Filled ∧ w.m_playerLimit=limit := by
    rw [show w=as.foldl World.step (World.start limit) from run_eq_foldl _ _ _]
    refine List.foldlRecOn (motive := fun v : World => v.Kept ∧ v.Filled ∧
      v.m_playerLimit=limit) as _ ⟨start_kept limit,(Nat.zero_sub _).symm,rfl⟩ ?_
    rintro v ⟨hkept,hfilled,hsame⟩ a ha
    obtain ⟨hstep,hlimits⟩ := hfilled.step hkept (hsame ▸ hlimit) (has a ha)
    exact ⟨(hkept.step a).1,hstep,hlimits.trans hsame⟩
  refine ⟨hsame,?_,fun hwaiting => ?_⟩
  · unfold World.Filled at hfilled
    unfold World.GetActiveSessionCount
    omega
  · have hpos := List.length_pos_iff.mpr hwaiting
    unfold World.Filled at hfilled
    unfold World.GetActiveSessionCount
    omega

/-- Two players with one place. -/
theorem places_are_filled_two :
    (World.start 1).m_playerLimit=1 ∧
    let w := RunInvariant.run World.step (World.start 1)
      [.addSession 7 false true false,.addSession 8 false true false]
    w.m_playerLimit=1 ∧ w.GetActiveSessionCount ≤ 1 ∧
      (w.m_QueuedPlayer≠[] → w.GetActiveSessionCount=1) := by
  refine ⟨rfl,places_are_filled 1 Nat.one_pos _ ?_⟩
  exact List.forall_mem_cons.mpr ⟨⟨rfl,rfl⟩,List.forall_mem_singleton.mpr ⟨rfl,rfl⟩⟩

end Places

end Projectnelth.LoginQueueModel
