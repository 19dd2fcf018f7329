import Mathlib
import Projectnelth.PoolAccounting
import Projectnelth.PoolNesting

/-!
# The search for circular references

The rows give each group its two lists, and the search map the first mother of each pool. The search
follows the map; it removes exactly the links that close cycles, each once from each list. So the
groups and the map stay one when they were one and no such link is listed twice.
-/

namespace Projectnelth.PoolNesting

open PoolModel PoolCounting ParentMap WhileLoop

section Rows

variable {float : ℚ → Float32} {cfg c : PoolConfig} {rows done : List PoolRow} {row : PoolRow}

/-- The objects with a chance of their own, or those without. -/
def side (own : Bool) (group : PoolGroup) : List PoolObject :=
  if own then group.ExplicitlyChanced else group.EqualChanced

theorem side_AddEntry (own : Bool) (group : PoolGroup) (obj : PoolObject) (limit : ℕ) :
    side own (AddEntry group obj limit)=
      side own group++if (obj.chance != 0 && limit == 1)=own then [obj] else [] := by
  unfold AddEntry side
  cases own <;> cases hown : (obj.chance != 0 && limit == 1) <;> simp

/-- What is loaded after some rows that pass the checks. -/
structure Loaded (float : ℚ → Float32) (cfg : PoolConfig) (done : List PoolRow) (c : PoolConfig) :
    Prop where
  /-- The last index stays. -/
  max : c.max_pool_id=cfg.max_pool_id
  limit : c.MaxLimit=cfg.MaxLimit
  mothers : ∀ child,c.mPoolSearchMap child=
    (done.find? fun row => row.pool_id=child).map PoolRow.mother_pool
  objects : ∀ own mother,side own (c.groups Kind.Pool mother)=
    (done.filter fun row => row.mother_pool=mother ∧ row.explicit float cfg=own).map
      (PoolRow.object float)

theorem passes_iff : row.passes cfg=true ↔ ¬row.mother_pool > cfg.max_pool_id ∧
    ¬row.pool_id > cfg.max_pool_id ∧ ¬row.mother_pool=row.pool_id ∧
      ¬(row.chance < 0 ∨ row.chance > 100) := by
  unfold PoolRow.passes
  rw [decide_eq_true_iff,not_or,not_lt,not_lt,not_lt,not_lt]

/-- A row that fails a check is left out. -/
theorem addRow_of_not_passes (hmax : c.max_pool_id=cfg.max_pool_id) (h : ¬row.passes cfg=true) :
    addRow float c row=c := by
  rw [passes_iff,← hmax] at h
  unfold addRow
  split_ifs <;> first | rfl | (exfalso; tauto)

theorem Loaded.concat (h : Loaded float cfg done c) (hrow : row.passes cfg=true) :
    Loaded float cfg (done++[row]) (addRow float c row) := by
  obtain ⟨hmother,hchild,hne,hchance⟩ := passes_iff.mp hrow
  unfold addRow
  rw [h.max,if_neg hmother,if_neg hchild,if_neg hne,if_neg hchance]
  refine ⟨h.max,h.limit,fun child => ?_,fun own mother => ?_⟩
  · dsimp only
    rw [List.find?_append]
    by_cases hchild : row.pool_id=child
    · have hrow : ([row].find? fun r => r.pool_id=child)=some row :=
        List.find?_cons_of_pos (decide_eq_true hchild)
      have hfirst := h.mothers child
      rw [hrow,hchild]
      cases hdone : done.find? fun r => r.pool_id=child with
      | none =>
        rw [hdone,Option.map_none] at hfirst
        rw [hfirst,if_neg (by decide),Function.update_self,Option.none_or,Option.map_some]
      | some r =>
        rw [hdone,Option.map_some] at hfirst
        rw [hfirst,if_pos (by rfl),hfirst]
        rfl
    · have hrow : ([row].find? fun r => r.pool_id=child)=none :=
        List.find?_cons_of_neg (fun hdec => hchild (of_decide_eq_true hdec))
      rw [hrow,Option.or_none,← h.mothers]
      split_ifs
      · rfl
      · exact Function.update_of_ne (Ne.symm hchild) _ _
  · dsimp only [setPoolGroup]
    rw [Function.update_self,List.filter_append,List.map_append,← h.objects own mother]
    by_cases hmother : row.mother_pool=mother
    · rw [← hmother,Function.update_self,side_AddEntry,h.limit]
      congr 1
      by_cases hown : row.explicit float cfg=own
      · have hone : ([row].filter fun r =>
            r.mother_pool=row.mother_pool ∧ r.explicit float cfg=own)=[row] :=
          List.filter_cons_of_pos (decide_eq_true ⟨rfl,hown⟩)
        rw [hone]
        exact if_pos hown
      · have hnone : ([row].filter fun r =>
            r.mother_pool=row.mother_pool ∧ r.explicit float cfg=own)=[] :=
          List.filter_cons_of_neg (fun hdec => hown (of_decide_eq_true hdec).2)
        rw [hnone]
        exact if_neg hown
    · have hnone : ([row].filter fun r =>
          r.mother_pool=mother ∧ r.explicit float cfg=own)=[] :=
        List.filter_cons_of_neg (fun hdec => hmother (of_decide_eq_true hdec).1)
      rw [Function.update_of_ne (Ne.symm hmother),hnone]
      exact (List.append_nil _).symm

theorem Loaded.foldl (h : Loaded float cfg done c) :
    Loaded float cfg (done++passing cfg rows) (rows.foldl (addRow float) c) := by
  induction rows generalizing done c with
  | nil =>
    have hnil : passing cfg []=[] := rfl
    rw [hnil,List.append_nil]
    exact h
  | cons row rows ih =>
    unfold passing at ih ⊢
    rw [List.foldl_cons]
    by_cases hrow : row.passes cfg=true
    · rw [List.filter_cons_of_pos hrow,List.append_cons]
      exact ih (h.concat hrow)
    · rw [List.filter_cons_of_neg hrow,addRow_of_not_passes h.max hrow]
      exact ih h

theorem loaded (float : ℚ → Float32) (cfg : PoolConfig) (rows : List PoolRow) :
    Loaded float cfg (passing cfg rows) (rows.foldl (addRow float) (Initialize cfg)) := by
  have hstart : Loaded float cfg [] (Initialize cfg) := by
    refine ⟨rfl,rfl,fun _ => rfl,fun own mother => ?_⟩
    dsimp only [Initialize]
    rw [Function.update_self]
    cases own <;> rfl
  exact hstart.foldl

end Rows

section Search

variable {base g r : PoolConfig} {i x u : ℕ} {c c' : Check}

/-- The sub-pools in one of the two lists of a group. -/
def links (own : Bool) (cfg : PoolConfig) (mother : ℕ) : List ℕ :=
  (side own (cfg.groups Kind.Pool mother)).map PoolObject.guid

theorem map_eraseP_guid (objs : List PoolObject) (child : ℕ) :
    (objs.eraseP fun obj => obj.guid=child).map PoolObject.guid=
      (objs.map PoolObject.guid).erase child := by
  rw [List.erase_eq_eraseP,List.eraseP_map]
  refine congrArg (fun p => (objs.eraseP p).map PoolObject.guid) (funext fun obj => ?_)
  exact Bool.eq_iff_iff.mpr (by
    rw [decide_eq_true_iff,Function.comp_apply,beq_iff_eq]
    exact eq_comm)

/-- A removed link goes once from each list of the mother. -/
theorem links_removeLink (own : Bool) (g : PoolConfig) (child mother mother' : ℕ) :
    links own (removeLink g child mother) mother'=
      if mother'=mother then (links own g mother).erase child else links own g mother' := by
  unfold links removeLink setPoolGroup
  dsimp only
  rw [Function.update_self]
  by_cases hmother : mother'=mother
  · rw [hmother,Function.update_self,if_pos rfl]
    unfold RemoveOneRelation side
    cases own
    · exact map_eraseP_guid _ child
    · exact map_eraseP_guid _ child
  · rw [Function.update_of_ne hmother,if_neg hmother]

/-- What is loaded after the search from some pools. -/
structure Checked (base : PoolConfig) (i : ℕ) (g : PoolConfig) : Prop where
  /-- The last index stays. -/
  max : g.max_pool_id=base.max_pool_id
  /-- The links of the map that close cycles are removed. -/
  cut : Cut base.mPoolSearchMap i g.mPoolSearchMap
  /-- These links are removed once from each list. -/
  closes : ∀ own mother child,Closes base.mPoolSearchMap i child →
    base.mPoolSearchMap child=some mother →
      (links own g mother).count child=(links own base mother).count child-1
  /-- All others stay in the lists. -/
  stays : ∀ own mother child,
    ¬(Closes base.mPoolSearchMap i child ∧ base.mPoolSearchMap child=some mother) →
      (links own g mother).count child=(links own base mother).count child

theorem checked_zero (base : PoolConfig) : Checked base 0 base := by
  refine ⟨rfl,cut_zero _,fun own mother child h _ => ?_,fun _ _ _ _ => rfl⟩
  obtain ⟨_,_,_,j,hj,_⟩ := h
  exact absurd hj (Nat.not_lt_zero j)

/-- The search from a pool has come to another one. -/
structure Walking (i : ℕ) (g : PoolConfig) (x : ℕ) (c : Check) : Prop where
  /-- Nothing is changed. -/
  cfg : c.cfg=g
  /-- The place. -/
  here : c.poolItr=find g x
  /-- It is on the walk. -/
  reach : Reach g.mPoolSearchMap i x
  new : x∉c.checkedPools
  before : ∀ y∈c.checkedPools,Reach g.mPoolSearchMap y x
  walk : ∀ y∈c.checkedPools,Reach g.mPoolSearchMap i y
  /-- All but the first one come from a checked one. -/
  origin : ∀ y∈insert x c.checkedPools,i=y ∨ ∃ z∈c.checkedPools,g.mPoolSearchMap z=some y
  bound : c.checkedPools ⊆ Finset.range (g.max_pool_id+1)

/-- A link was found that leads back, and it was removed. -/
def Found (i : ℕ) (g : PoolConfig) (c : Check) : Prop :=
  ∃ x u,c.cfg=removeLink g x u ∧ Reach g.mPoolSearchMap i x ∧ g.mPoolSearchMap x=some u ∧
    Reach g.mPoolSearchMap u x ∧
      (i=u ∨ ∃ y,Reach g.mPoolSearchMap i y ∧ g.mPoolSearchMap y=some u ∧ y≠x)

/-- What the map names are indices. -/
def Bounded (g : PoolConfig) : Prop :=
  ∀ child mother,g.mPoolSearchMap child=some mother → child ≤ g.max_pool_id

/-- The rounds that are left. -/
def left (g : PoolConfig) (c : Check) : ℕ := g.max_pool_id+1-c.checkedPools.card

theorem walking_start (i : ℕ) (g : PoolConfig) : Walking i g i ⟨g,∅,find g i⟩ := by
  refine ⟨rfl,rfl,Relation.ReflTransGen.refl,Finset.notMem_empty i,?_,?_,?_,Finset.empty_subset _⟩
  · exact fun y hy => absurd hy (Finset.notMem_empty y)
  · exact fun y hy => absurd hy (Finset.notMem_empty y)
  intro y hy
  rcases Finset.mem_insert.mp hy with rfl | hy
  · exact Or.inl rfl
  · exact absurd hy (Finset.notMem_empty y)

theorem Walking.next (h : Walking i g x c) (hb : Bounded g) (hu : g.mPoolSearchMap x=some u) :
    (∃ t,checkRound c=(t,true) ∧ Walking i g u t ∧ left g t < left g c) ∨
      ∃ t,checkRound c=(t,false) ∧ Found i g t := by
  have hitr : c.poolItr=some (x,u) := by
    rw [h.here]
    unfold find
    rw [hu,Option.map_some]
  have hround : checkRound c=if u∈insert x c.checkedPools
      then (⟨removeLink c.cfg x u,insert x c.checkedPools,c.poolItr⟩,false)
      else (⟨c.cfg,insert x c.checkedPools,find c.cfg u⟩,true) := by
    unfold checkRound
    rw [hitr]
  by_cases hback : u∈insert x c.checkedPools
  · refine Or.inr ⟨_,by rw [hround,if_pos hback],x,u,by rw [h.cfg],h.reach,hu,?_,?_⟩
    · rcases Finset.mem_insert.mp hback with rfl | hmem
      · exact Relation.ReflTransGen.refl
      · exact h.before u hmem
    · rcases h.origin u hback with hi | ⟨z,hz,hzu⟩
      · exact Or.inl hi
      · refine Or.inr ⟨z,h.walk z hz,hzu,?_⟩
        rintro rfl
        exact h.new hz
  · refine Or.inl ⟨⟨c.cfg,insert x c.checkedPools,find c.cfg u⟩,by rw [hround,if_neg hback],
      ⟨h.cfg,by rw [h.cfg],h.reach.tail hu,hback,?_,?_,?_,?_⟩,?_⟩
    · intro y hy
      rcases Finset.mem_insert.mp hy with rfl | hy
      · exact Relation.ReflTransGen.single hu
      · exact (h.before y hy).tail hu
    · intro y hy
      rcases Finset.mem_insert.mp hy with rfl | hy
      · exact h.reach
      · exact h.walk y hy
    · intro y hy
      rcases Finset.mem_insert.mp hy with rfl | hy
      · exact Or.inr ⟨x,Finset.mem_insert_self _ _,hu⟩
      · refine (h.origin y hy).imp_right fun ⟨z,hz,hzy⟩ => ⟨z,Finset.mem_insert_of_mem hz,hzy⟩
    · refine Finset.insert_subset ?_ h.bound
      exact Finset.mem_range.mpr (Nat.lt_succ_of_le (hb x u hu))
    have hsub : insert x c.checkedPools ⊆ Finset.range (g.max_pool_id+1) :=
      Finset.insert_subset (Finset.mem_range.mpr (Nat.lt_succ_of_le (hb x u hu))) h.bound
    have hcard := Finset.card_le_card hsub
    unfold left
    rw [Finset.card_insert_of_notMem h.new,Finset.card_range] at hcard
    rw [Finset.card_insert_of_notMem h.new]
    omega

/-- Where a walk comes to its end. -/
theorem Walking.of_none (h : Walking i g x c) (hitr : c.poolItr=none) :
    g.mPoolSearchMap x=none := by
  rw [h.here] at hitr
  exact Option.map_eq_none_iff.mp hitr

/-- Where a walk goes on. -/
theorem Walking.of_isSome (h : Walking i g x c) (hitr : c.poolItr.isSome=true) :
    ∃ u,g.mPoolSearchMap x=some u := by
  rw [h.here] at hitr
  unfold find at hitr
  rw [Option.isSome_map] at hitr
  exact Option.isSome_iff_exists.mp hitr

/-- The search from a pool comes to an end, or finds a link that leads back. -/
theorem Walking.outcome (hb : Bounded g) (hruns : Runs (fun c => c.poolItr.isSome) checkRound c c')
    (h : Walking i g x c) :
    (c'.cfg=g ∧ ∃ y,Reach g.mPoolSearchMap i y ∧ g.mPoolSearchMap y=none) ∨ Found i g c' := by
  induction hruns generalizing x with
  | @exit c hguard =>
    have hitr : c.poolItr=none := Option.isSome_eq_false_iff.mp hguard |> Option.isNone_iff_eq_none.mp
    exact Or.inl ⟨h.cfg,x,h.reach,h.of_none hitr⟩
  | stop hguard hbody =>
    obtain ⟨u,hu⟩ := h.of_isSome hguard
    rcases h.next hb hu with ⟨t,ht,_⟩ | ⟨t,ht,hfound⟩
    · rw [ht] at hbody
      cases hbody
    · rw [ht] at hbody
      cases hbody
      exact Or.inr hfound
  | round hguard hbody _ ih =>
    obtain ⟨u,hu⟩ := h.of_isSome hguard
    rcases h.next hb hu with ⟨t,ht,hwalk,_⟩ | ⟨t,ht,_⟩
    · rw [ht] at hbody
      cases hbody
      exact ih hwalk
    · rw [ht] at hbody
      cases hbody

/-- The search from a pool ends. -/
theorem exists_checkPool (hb : Bounded g) (i : ℕ) : ∃ g',CheckPool i g g' := by
  refine ⟨_,_,runs_fuelled (I := fun c => ∃ x,Walking i g x c) (m := left g) ?_
    ⟨i,walking_start i g⟩ (Nat.lt_succ_self _),rfl⟩
  rintro c t ⟨x,h⟩ hguard hbody
  obtain ⟨u,hu⟩ := h.of_isSome hguard
  rcases h.next hb hu with ⟨t',ht,hwalk,hleft⟩ | ⟨t',ht,_⟩
  · rw [ht] at hbody
    cases hbody
    exact ⟨⟨u,hwalk⟩,hleft⟩
  · rw [ht] at hbody
    cases hbody

theorem Checked.bounded (h : Checked base i g) (hb : Bounded base) : Bounded g := by
  intro child mother hlink
  rw [h.max]
  exact hb child mother (h.cut.part child mother hlink)

/-- The search from a pool removes the links that close a cycle for it. -/
theorem Checked.checkPool (h : Checked base i g) (hb : Bounded base) (hcheck : CheckPool i g r) :
    Checked base (i+1) r := by
  obtain ⟨c',hruns,hcfg⟩ := hcheck
  rcases (walking_start i g).outcome (h.bounded hb) hruns with
    ⟨heq,y,hiy,hy⟩ | ⟨x,u,heq,hix,hxu,hux,hentry⟩
  · have hiff := h.cut.ended hiy hy
    rw [hcfg,heq]
    refine ⟨h.max,⟨fun v hv => h.cut.closes v ((hiff v).mp hv),
      fun v hv => h.cut.stays v (fun hv' => hv ((hiff v).mpr hv'))⟩,?_,?_⟩
    · exact fun own mother child hclose => h.closes own mother child ((hiff child).mp hclose)
    · exact fun own mother child hopen => h.stays own mother child
        (fun hclose => hopen (hclose.imp_left (hiff child).mpr))
  · have hiff := h.cut.found hix hxu hux hentry
    have hnew : ¬Closes base.mPoolSearchMap i x := by
      intro hclose
      rw [h.cut.closes x hclose] at hxu
      cases hxu
    have hbase : base.mPoolSearchMap x=some u := h.cut.part x u hxu
    rw [hcfg,heq]
    refine ⟨h.max,⟨fun v hv => ?_,fun v hv => ?_⟩,?_,?_⟩
    · show Function.update g.mPoolSearchMap x none v=none
      rcases (hiff v).mp hv with hv | rfl
      · by_cases hvx : v=x
        · rw [hvx,Function.update_self]
        · rw [Function.update_of_ne hvx]
          exact h.cut.closes v hv
      · rw [Function.update_self]
    · show Function.update g.mPoolSearchMap x none v=_
      obtain ⟨hclose,hvx⟩ := not_or.mp (fun hor => hv ((hiff v).mpr hor))
      rw [Function.update_of_ne hvx]
      exact h.cut.stays v hclose
    · intro own mother child hclose hlink
      rw [links_removeLink]
      rcases (hiff child).mp hclose with hclose | rfl
      · have hne : child≠x := fun heq => hnew (by rw [← heq]; exact hclose)
        rw [← h.closes own mother child hclose hlink]
        split_ifs with hmother
        · rw [hmother,List.count_erase_of_ne hne]
        · rfl
      · have hmother : mother=u := Option.some.inj (hlink.symm.trans hbase)
        rw [if_pos hmother,List.count_erase_self,hmother]
        rw [h.stays own u child fun hclose => hnew hclose.1]
    · intro own mother child hopen
      have hopen' : ¬(Closes base.mPoolSearchMap i child ∧
          base.mPoolSearchMap child=some mother) :=
        fun hclose => hopen (hclose.imp_left fun hc => (hiff child).mpr (Or.inl hc))
      rw [links_removeLink,← h.stays own mother child hopen']
      split_ifs with hmother
      · have hne : child≠x := by
          rintro rfl
          exact hopen ⟨(hiff child).mpr (Or.inr rfl),by rw [hbase,hmother]⟩
        rw [hmother,List.count_erase_of_ne hne]
      · rfl

/-- The searches from all pools end, and they remove the links that close cycles. -/
theorem Checked.checkPools (hb : Bounded base) (n : ℕ) (h : Checked base i g) :
    (∃ r,CheckPools (List.range' i n) g r) ∧
      ∀ r,CheckPools (List.range' i n) g r → Checked base (i+n) r := by
  induction n generalizing i g with
  | zero =>
    refine ⟨⟨g,rfl⟩,fun r hr => ?_⟩
    rw [show r=g from hr]
    exact h
  | succ n ih =>
    rw [List.range'_succ]
    obtain ⟨g',hg'⟩ := exists_checkPool (h.bounded hb) i
    constructor
    · obtain ⟨r,hr⟩ := (ih (h.checkPool hb hg')).1
      exact ⟨r,g',hg',hr⟩
    rintro r ⟨g₁,hg₁,hr⟩
    have hchecked := (ih (h.checkPool hb hg₁)).2 r hr
    rw [Nat.add_right_comm] at hchecked
    exact hchecked

end Search

section Ends

variable {cfg : PoolConfig} {spawnPool despawnPool callback : Callback} {kind : Kind} {pool : ℕ}

/-- A call ends from every state. -/
def Ends (callback : Callback) (pool : ℕ) : Prop := ∀ s,(callback pool s).isSome

theorem isSome_bind {α β : Type} {a : Option α} {h : α → Option β} (ha : a.isSome=true)
    (hb : ∀ x,(h x).isSome=true) : (a >>= h).isSome=true := by
  obtain ⟨x,rfl⟩ := Option.isSome_iff_exists.mp ha
  exact hb x

theorem objectCall_ends {guid : ℕ} (h : kind=Kind.Pool → Ends callback guid) (s : State) :
    (objectCall callback kind guid s).isSome := by
  cases kind with
  | Creature => rfl
  | GameObject => rfl
  | Pool => exact h rfl s

theorem despawnList_ends {objs : List PoolObject}
    (h : ∀ obj∈objs,kind=Kind.Pool → Ends despawnPool obj.guid) (guid : ℕ) (s : State) :
    (despawnList despawnPool kind pool guid objs s).isSome := by
  induction objs generalizing s with
  | nil => rfl
  | cons obj objs ih =>
    have hrest := ih fun o ho => h o (List.mem_cons_of_mem obj ho)
    unfold despawnList
    dsimp only
    split_ifs
    · exact isSome_bind (objectCall_ends (h obj List.mem_cons_self) s) fun s₁ => hrest _
    · exact hrest _

theorem DespawnObject_ends
    (h : ∀ sub∈members cfg kind pool,kind=Kind.Pool → Ends despawnPool sub) (guid : ℕ)
    (s : State) : (DespawnObject despawnPool (cfg.groups kind pool) kind pool guid s).isSome := by
  refine isSome_bind (despawnList_ends (fun obj hobj => h _ ?_) guid s)
    (despawnList_ends (fun obj hobj => h _ ?_) guid)
  · exact List.mem_map_of_mem (List.mem_append_left _ hobj)
  · exact List.mem_map_of_mem (List.mem_append_right _ hobj)

/-- The loop of `SpawnObject` ends when the calls for the members do. -/
theorem spawnLoop_ends
    (hspawn : ∀ sub∈members cfg kind pool,kind=Kind.Pool → Ends spawnPool sub)
    (hdespawn : ∀ sub∈members cfg kind pool,kind=Kind.Pool → Ends despawnPool sub)
    (i triggerFrom lastDespawned : ℕ) (s : State) :
    (spawnLoop spawnPool despawnPool (cfg.groups kind pool) kind pool i triggerFrom lastDespawned
      s).isSome := by
  induction i generalizing triggerFrom lastDespawned s with
  | zero => rfl
  | succ i ih =>
    unfold spawnLoop
    rcases hroll : RollOne (cfg.groups kind pool) kind triggerFrom s with ⟨_ | obj,s₁⟩
    · exact ih _ _ _
    have hmem := (PoolAccounting.RollOne_spec hroll).1
    dsimp only
    split_ifs
    · exact ih _ _ _
    · exact ih _ _ _
    · refine isSome_bind (objectCall_ends (hspawn _ hmem) _) fun s₂ => ?_
      exact isSome_bind (DespawnObject_ends hdespawn _ s₂) fun s₃ => ih _ _ s₃
    · exact isSome_bind (objectCall_ends (hspawn _ hmem) _) fun s₂ => ih _ _ s₂

theorem SpawnPoolOf_ends (hle : pool ≤ cfg.max_pool_id)
    (hspawn : ∀ sub∈members cfg kind pool,kind=Kind.Pool → Ends spawnPool sub)
    (hdespawn : ∀ sub∈members cfg kind pool,kind=Kind.Pool → Ends despawnPool sub)
    (guid : ℕ) (s : State) : (SpawnPoolOf cfg spawnPool despawnPool kind pool guid s).isSome := by
  unfold SpawnPoolOf
  rw [if_neg (not_lt_of_ge hle)]
  split_ifs
  · rfl
  · exact spawnLoop_ends hspawn hdespawn _ _ _ _

theorem despawnGroup_ends (hle : pool ≤ cfg.max_pool_id)
    (hdespawn : ∀ sub∈members cfg kind pool,kind=Kind.Pool → Ends despawnPool sub) (s : State) :
    (despawnGroup cfg despawnPool kind pool s).isSome := by
  unfold despawnGroup
  rw [if_neg (not_lt_of_ge hle)]
  split_ifs
  · rfl
  · exact DespawnObject_ends hdespawn 0 s

/-- With a rank that sub-pools lie below, spawning and despawning end: a fuel above the rank is
enough. -/
theorem pools_end {rank : ℕ → ℕ} (hbelow : ∀ sub pool,Listed cfg sub pool → rank sub < rank pool)
    (hbound : ∀ sub pool,Listed cfg sub pool → sub ≤ cfg.max_pool_id) (fuel : ℕ) :
    ∀ pool ≤ cfg.max_pool_id,rank pool < fuel →
      Ends (SpawnPool cfg fuel) pool ∧ Ends (DespawnPool cfg fuel) pool := by
  induction fuel with
  | zero => exact fun pool _ h => absurd h (Nat.not_lt_zero _)
  | succ fuel ih =>
    intro pool hle hrank
    have hsub : ∀ kind,∀ sub∈members cfg kind pool,kind=Kind.Pool →
        Ends (SpawnPool cfg fuel) sub ∧ Ends (DespawnPool cfg fuel) sub := by
      rintro kind sub hsub rfl
      have hlt := hbelow sub pool hsub
      exact ih sub (hbound sub pool hsub) (by omega)
    have hspawn : ∀ kind,∀ sub∈members cfg kind pool,kind=Kind.Pool →
        Ends (SpawnPool cfg fuel) sub := fun kind sub h hkind => (hsub kind sub h hkind).1
    have hdespawn : ∀ kind,∀ sub∈members cfg kind pool,kind=Kind.Pool →
        Ends (DespawnPool cfg fuel) sub := fun kind sub h hkind => (hsub kind sub h hkind).2
    constructor
    · intro s
      refine isSome_bind (SpawnPoolOf_ends hle (hspawn _) (hdespawn _) 0 s) fun s₁ => ?_
      refine isSome_bind (SpawnPoolOf_ends hle (hspawn _) (hdespawn _) 0 s₁) fun s₂ => ?_
      exact SpawnPoolOf_ends hle (hspawn _) (hdespawn _) 0 s₂
    · intro s
      refine isSome_bind (despawnGroup_ends hle (hdespawn _) s) fun s₁ => ?_
      refine isSome_bind (despawnGroup_ends hle (hdespawn _) s₁) fun s₂ => ?_
      exact despawnGroup_ends hle (hdespawn _) s₂

/-- Pools that are not below themselves have a rank: how many pools are below them. -/
theorem exists_rank (hacyclic : ∀ pool,¬Relation.TransGen (Listed cfg) pool pool)
    (hbound : ∀ sub pool,Listed cfg sub pool → sub ≤ cfg.max_pool_id) :
    ∃ rank : ℕ → ℕ,∀ sub pool,Listed cfg sub pool → rank sub < rank pool := by
  classical
  refine ⟨fun pool => ((Finset.range (cfg.max_pool_id+1)).filter fun sub =>
    Relation.TransGen (Listed cfg) sub pool).card,fun sub pool h => ?_⟩
  refine Finset.card_lt_card (Finset.ssubset_iff_of_subset ?_ |>.mpr ⟨sub,?_,?_⟩)
  · intro v hv
    obtain ⟨hrange,hreach⟩ := Finset.mem_filter.mp hv
    exact Finset.mem_filter.mpr ⟨hrange,hreach.tail h⟩
  · exact Finset.mem_filter.mpr ⟨Finset.mem_range.mpr (Nat.lt_succ_of_le (hbound sub pool h)),
      Relation.TransGen.single h⟩
  · exact fun hsub => hacyclic sub (Finset.mem_filter.mp hsub).2

theorem ends_of_acyclic (hacyclic : ∀ pool,¬Relation.TransGen (Listed cfg) pool pool)
    (hbound : ∀ sub pool,Listed cfg sub pool → sub ≤ cfg.max_pool_id) {pool : ℕ}
    (hle : pool ≤ cfg.max_pool_id) :
    ∃ fuel,∀ s,(SpawnPool cfg fuel pool s).isSome ∧ (DespawnPool cfg fuel pool s).isSome ∧
      ∀ kind guid,(SpawnPoolOf cfg (SpawnPool cfg fuel) (DespawnPool cfg fuel) kind pool guid
        s).isSome := by
  obtain ⟨rank,hbelow⟩ := exists_rank hacyclic hbound
  have hends := pools_end hbelow hbound (rank pool+1)
  refine ⟨rank pool+1,fun s => ?_⟩
  obtain ⟨hspawn,hdespawn⟩ := hends pool hle (Nat.lt_succ_self _)
  refine ⟨hspawn s,hdespawn s,fun kind guid => ?_⟩
  have hsub : ∀ sub∈members cfg kind pool,kind=Kind.Pool →
      Ends (SpawnPool cfg (rank pool+1)) sub ∧ Ends (DespawnPool cfg (rank pool+1)) sub := by
    rintro sub hsub rfl
    have hlt := hbelow sub pool hsub
    exact hends sub (hbound sub pool hsub) (by omega)
  exact SpawnPoolOf_ends hle (fun sub h hkind => (hsub sub h hkind).1)
    (fun sub h hkind => (hsub sub h hkind).2) guid s

end Ends

section Kept

variable {float : ℚ → Float32} {cfg base r : PoolConfig} {rows : List PoolRow} {child mother : ℕ}

theorem listed_iff : Listed r child mother ↔ ∃ own,child∈links own r mother := by
  unfold Listed members links side
  rw [List.map_append,List.mem_append]
  constructor
  · rintro (h | h)
    · exact ⟨false,h⟩
    · exact ⟨true,h⟩
  · rintro ⟨own,h⟩
    cases own with
    | false => exact Or.inl h
    | true => exact Or.inr h

/-- How often a pool is in a list: as often as rows say so. -/
theorem Loaded.count (h : Loaded float cfg (passing cfg rows) base) (own : Bool)
    (mother child : ℕ) :
    (links own base mother).count child=((passing cfg rows).filter fun row =>
      row.pool_id=child ∧ row.mother_pool=mother ∧ row.explicit float cfg=own).length := by
  unfold links
  rw [h.objects,List.map_map,List.count,List.countP_map,List.countP_filter,
    List.countP_eq_length_filter]
  refine congrArg (fun p => ((passing cfg rows).filter p).length) (funext fun row => ?_)
  refine Bool.eq_iff_iff.mpr ?_
  rw [Bool.and_eq_true,decide_eq_true_iff,decide_eq_true_iff,Function.comp_apply,beq_iff_eq]
  exact Iff.rfl

theorem Loaded.map_eq (h : Loaded float cfg (passing cfg rows) base) :
    base.mPoolSearchMap=firstMother cfg rows := funext h.mothers

theorem Loaded.listed_iff (h : Loaded float cfg (passing cfg rows) base) :
    Listed base child mother ↔
      ∃ row∈passing cfg rows,row.pool_id=child ∧ row.mother_pool=mother := by
  rw [PoolNesting.listed_iff]
  constructor
  · rintro ⟨own,hmem⟩
    have hpos := List.count_pos_iff.mpr hmem
    rw [h.count] at hpos
    obtain ⟨row,hrow⟩ := List.exists_mem_of_length_pos hpos
    obtain ⟨hrow,hdec⟩ := List.mem_filter.mp hrow
    obtain ⟨hchild,hmother,_⟩ := of_decide_eq_true hdec
    exact ⟨row,hrow,hchild,hmother⟩
  · rintro ⟨row,hrow,hchild,hmother⟩
    refine ⟨row.explicit float cfg,List.count_pos_iff.mp ?_⟩
    rw [h.count]
    exact List.length_pos_of_mem (List.mem_filter.mpr
      ⟨hrow,decide_eq_true ⟨hchild,hmother,rfl⟩⟩)

theorem exists_row (h : firstMother cfg rows child=some mother) :
    ∃ row∈passing cfg rows,row.pool_id=child ∧ row.mother_pool=mother := by
  obtain ⟨row,hfind,hmother⟩ := Option.map_eq_some_iff.mp h
  have hchild := List.find?_some hfind
  exact ⟨row,List.mem_of_find?_eq_some hfind,of_decide_eq_true hchild,hmother⟩

theorem exists_firstMother {row : PoolRow} (hrow : row∈passing cfg rows) :
    ∃ mother,firstMother cfg rows row.pool_id=some mother := by
  unfold firstMother
  cases hfind : (passing cfg rows).find? fun r => r.pool_id=row.pool_id with
  | none => exact absurd (decide_eq_true rfl) (List.find?_eq_none.mp hfind row hrow)
  | some r => exact ⟨r.mother_pool,rfl⟩

theorem of_firstMother (h : firstMother cfg rows child=some mother) :
    child ≤ cfg.max_pool_id ∧ mother ≤ cfg.max_pool_id ∧ mother≠child := by
  obtain ⟨row,hrow,rfl,rfl⟩ := exists_row h
  obtain ⟨hmother,hchild,hne,_⟩ := passes_iff.mp (List.mem_filter.mp hrow).2
  exact ⟨le_of_not_gt hchild,le_of_not_gt hmother,hne⟩

theorem exists_lt_of_onCycle {v : ℕ} (hv : OnCycle (firstMother cfg rows) v) :
    ∃ i < cfg.max_pool_id,Reach (firstMother cfg rows) i v := by
  obtain ⟨u,hvu,hreach⟩ := hv.next
  obtain ⟨hvle,hule,hne⟩ := of_firstMother hvu
  rcases Nat.lt_or_gt_of_ne hne with hlt | hlt
  · exact ⟨u,by omega,hreach⟩
  · exact ⟨v,by omega,Relation.ReflTransGen.refl⟩

theorem Checked.listed_of_stays (h : Checked base cfg.max_pool_id r)
    (hopen : ¬(Closes base.mPoolSearchMap cfg.max_pool_id child ∧
      base.mPoolSearchMap child=some mother)) :
    Listed r child mother ↔ Listed base child mother := by
  rw [PoolNesting.listed_iff,PoolNesting.listed_iff]
  refine exists_congr fun own => ?_
  rw [← List.count_pos_iff,← List.count_pos_iff,h.stays own mother child hopen]

theorem Nestable.nested (hn : Nestable float cfg rows)
    (hl : Loaded float cfg (passing cfg rows) base) (h : Checked base cfg.max_pool_id r) :
    Nested r := by
  have hmap := hl.map_eq
  have hone : ∀ child mother,Listed base child mother ↔
      firstMother cfg rows child=some mother := by
    intro child mother
    rw [hl.listed_iff]
    refine ⟨?_,exists_row⟩
    rintro ⟨row,hrow,rfl,rfl⟩
    obtain ⟨first,hfirst⟩ := exists_firstMother hrow
    obtain ⟨row',hrow',hchild,rfl⟩ := exists_row hfirst
    rw [hfirst,hn.oneMother row hrow row' hrow' hchild.symm]
  have hcoincide : ∀ child mother,Listed r child mother ↔ r.mPoolSearchMap child=some mother := by
    intro child mother
    by_cases hclose : Closes base.mPoolSearchMap cfg.max_pool_id child
    · rw [h.cut.closes child hclose]
      refine ⟨fun hlisted => ?_,fun hnone => by cases hnone⟩
      by_cases hlink : base.mPoolSearchMap child=some mother
      · obtain ⟨own,hmem⟩ := PoolNesting.listed_iff.mp hlisted
        have hpos := List.count_pos_iff.mpr hmem
        have honce := hn.once child (by rw [← hmap]; exact hclose) own
        have hle : (links own base mother).count child ≤ 1 := by
          rw [hl.count]
          refine le_trans (List.Sublist.length_le (List.monotone_filter_right _ ?_)) honce
          intro row hdec
          obtain ⟨hchild,_,hown⟩ := of_decide_eq_true hdec
          exact decide_eq_true ⟨hchild,hown⟩
        rw [h.closes own mother child hclose hlink] at hpos
        omega
      · have hbase := (h.listed_of_stays fun hc => hlink hc.2).mp hlisted
        rw [hone,← hmap] at hbase
        exact absurd hbase hlink
    · rw [h.cut.stays child hclose,h.listed_of_stays fun hc => hclose hc.1,hone,hmap]
  have hbound : ∀ sub pool,Listed r sub pool → sub ≤ r.max_pool_id := by
    intro sub pool hlisted
    have hlink := h.cut.part sub pool ((hcoincide sub pool).mp hlisted)
    rw [hmap] at hlink
    rw [h.max,hl.max]
    exact (of_firstMother hlink).1
  have hacyclic : ∀ pool,¬Relation.TransGen (Listed r) pool pool := by
    intro pool hcycle
    have hon : OnCycle r.mPoolSearchMap pool :=
      Relation.TransGen.mono (fun c m hc => (hcoincide c m).mp hc) _ _ hcycle
    have hbase := hon.of_part h.cut.part
    have hex := hbase
    rw [hmap] at hex
    obtain ⟨i,hi,hreach⟩ := exists_lt_of_onCycle hex
    rw [← hmap] at hreach
    exact h.cut.acyclic hi hreach hon
  exact ⟨hacyclic,hcoincide,fun pool hle => ends_of_acyclic hacyclic hbound hle⟩

theorem Nested.nestable (hn : Nested r) (hl : Loaded float cfg (passing cfg rows) base)
    (h : Checked base cfg.max_pool_id r) : Nestable float cfg rows := by
  have hmap := hl.map_eq
  -- a row of another mother stays in her group, and the map has no link to her
  have hfirst : ∀ row∈passing cfg rows,
      firstMother cfg rows row.pool_id=some row.mother_pool := by
    intro row hrow
    by_contra hother
    have hlink : ¬base.mPoolSearchMap row.pool_id=some row.mother_pool := by
      rw [hmap]
      exact hother
    have hlisted : Listed r row.pool_id row.mother_pool :=
      (h.listed_of_stays fun hc => hlink hc.2).mpr (hl.listed_iff.mpr ⟨row,hrow,rfl,rfl⟩)
    exact hlink (h.cut.part _ _ ((hn.coincide _ _).mp hlisted))
  constructor
  · intro row hrow row' hrow' hchild
    have hsame := hfirst row' hrow'
    rw [← hchild,hfirst row hrow] at hsame
    exact Option.some.inj hsame
  · intro child hclose own
    rw [← hmap] at hclose
    obtain ⟨mother,hlink,_⟩ := hclose.2
    have hnone : ¬Listed r child mother := by
      rw [hn.coincide,h.cut.closes child hclose]
      exact fun hlinked => by cases hlinked
    have hzero : (links own r mother).count child=0 :=
      List.count_eq_zero.mpr fun hmem => hnone (PoolNesting.listed_iff.mpr ⟨own,hmem⟩)
    have hcount := h.closes own mother child hclose hlink
    rw [hzero,hl.count] at hcount
    have hsame : ((passing cfg rows).filter fun row =>
        row.pool_id=child ∧ row.explicit float cfg=own)=(passing cfg rows).filter fun row =>
          row.pool_id=child ∧ row.mother_pool=mother ∧ row.explicit float cfg=own := by
      refine List.filter_congr fun row hrow => decide_eq_decide.mpr ⟨?_,fun hc => ⟨hc.1,hc.2.2⟩⟩
      rintro ⟨hchild,hown⟩
      have hrowlink := hfirst row hrow
      rw [hchild,← hmap,hlink] at hrowlink
      exact ⟨hchild,(Option.some.inj hrowlink).symm,hown⟩
    rw [hsame]
    omega

/-- The search ends, and it removes the links that close cycles. -/
theorem loadPools_spec (float : ℚ → Float32) (cfg : PoolConfig) (rows : List PoolRow) :
    (∃ r,LoadPools float cfg rows r) ∧ ∀ r,LoadPools float cfg rows r →
      Checked (rows.foldl (addRow float) (Initialize cfg)) cfg.max_pool_id r := by
  have hl := loaded float cfg rows
  have hb : Bounded (rows.foldl (addRow float) (Initialize cfg)) := by
    intro child mother hlink
    rw [hl.map_eq] at hlink
    rw [hl.max]
    exact (of_firstMother hlink).1
  have hpools := (checked_zero _).checkPools hb cfg.max_pool_id
  rw [← List.range_eq_range',Nat.zero_add] at hpools
  exact hpools

theorem Kept.nestable (h : Kept float cfg rows) : Nestable float cfg rows := by
  obtain ⟨⟨r,hr⟩,hnested⟩ := h
  exact (hnested r hr).nestable (loaded float cfg rows) ((loadPools_spec float cfg rows).2 r hr)

/-- The search ends, and the pools are nested, exactly if all rows of a pool name one mother and no
link that closes a cycle is listed twice with a chance of its own or twice without. -/
theorem kept_iff (float : ℚ → Float32) (cfg : PoolConfig) (rows : List PoolRow) :
    Kept float cfg rows ↔ Nestable float cfg rows := by
  obtain ⟨hends,hall⟩ := loadPools_spec float cfg rows
  exact ⟨Kept.nestable,fun hn => ⟨hends,fun r hr => hn.nested (loaded float cfg rows) (hall r hr)⟩⟩

/-- Three pools without sub-pools. -/
def threePools : PoolConfig := ⟨3,fun _ => 2,fun _ _ => ⟨[],[]⟩,fun _ => none⟩

/-- A pool of two mothers: the search map has the first one only, and the cycle with the second one
stays in the groups. -/
theorem not_kept_twoMothers :
    ¬∀ (float : ℚ → Float32) (cfg : PoolConfig) (rows : List PoolRow),Kept float cfg rows := by
  intro hall
  have hn := (hall (fun _ => 0) threePools [⟨1,3,0⟩,⟨1,2,0⟩,⟨2,1,0⟩]).nestable
  have hone := hn.oneMother ⟨1,3,0⟩ (List.mem_filter.mpr ⟨by simp,by decide⟩) ⟨1,2,0⟩
    (List.mem_filter.mpr ⟨by simp,by decide⟩) rfl
  exact absurd hone (by decide)

end Kept

end Projectnelth.PoolNesting
