import Mathlib
import Projectnelth.SoloQueueModel

/-!
# Teams of the solo queue

A player list that reaches three members is a healer with two partners, and
one that does not proves that the healer has no two partners. Forming a team
takes its players out of every container and off the heap. Queues only shrink
during an update, so a healer without partners stays without.
-/

namespace Projectnelth.SoloQueueTeams

open SoloQueueModel

/-- The entries of the four multimaps. -/
def members (queue : SoloQueue) : List Ptr :=
  queue.queuedHealers++ (queue.queuedMelees++ (queue.queuedRanges++ queue.queuedDps))

/-- Each guid is queued once: the map names every entry of the multimaps under
its guid, and no entry has been deleted. -/
structure Agree (queue : SoloQueue) : Prop where
  /-- An entry of the map is an object of that guid. -/
  live : ∀ entry∈queue.allPlayersInQueue,
    ∃ info,queue.heap entry.2=some info ∧ info.playerGuid=entry.1
  guids : (queue.allPlayersInQueue.map Prod.fst).Nodup
  perm : (members queue).Perm (queue.allPlayersInQueue.map Prod.snd)

/-- The queue without some players: out of every container, and deleted. -/
def without (queue : SoloQueue) (ptrs : List Ptr) : SoloQueue where
  heap := fun ptr => if ptr∈ptrs then none else queue.heap ptr
  queuedHealers := queue.queuedHealers.filter (·∉ptrs)
  queuedMelees := queue.queuedMelees.filter (·∉ptrs)
  queuedRanges := queue.queuedRanges.filter (·∉ptrs)
  queuedDps := queue.queuedDps.filter (·∉ptrs)
  allPlayersInQueue := queue.allPlayersInQueue.filter (·.2∉ptrs)
  lastUpdateTime := queue.lastUpdateTime

/-- The queue after the loop over `allPlayersInQueue`. -/
def ranged (world : World) (queue : SoloQueue) : SoloQueue :=
  { queue with
    heap := fun ptr =>
      if ptr∈queue.allPlayersInQueue.map Prod.snd then
        (queue.heap ptr).map (updateMmrRange world)
      else queue.heap ptr
    lastUpdateTime := world.now }

/-- The class of a player who can be teamed: in the world, with a class and a
primary talent tree. -/
def teamClass (world : World) (guid : Guid) : Option UInt8 :=
  (world.FindPlayer guid).bind fun player =>
    if player.playerClass≠0 ∧ player.talentTree≠0 then some player.playerClass else none

/-- The class of a queued player who can be teamed. -/
def classOf (world : World) (queue : SoloQueue) (ptr : Ptr) : Option UInt8 :=
  (queue.heap ptr).bind fun info => teamClass world info.playerGuid

/-- One of the MMR windows of healer and player contains the other's MMR. -/
def Compatible (world : World) (queue : SoloQueue) (heal ptr : Ptr) : Prop :=
  ∃ healInfo info,queue.heap heal=some healInfo ∧ queue.heap ptr=some info ∧
    inRange world healInfo info

/-- Two queued players that a healer can be teamed with. -/
def Partners (world : World) (queue : SoloQueue) (heal a b : Ptr) : Prop :=
  a≠b ∧ Compatible world queue heal a ∧ Compatible world queue heal b ∧
    if world.dpsRestriction then a∈queue.queuedRanges ∧ b∈queue.queuedMelees
    else a∈queue.queuedDps ∧ b∈queue.queuedDps ∧
      ∃ c d,classOf world queue a=some c ∧ classOf world queue b=some d ∧ c≠d

/-- A healer and two partners. -/
def Team (world : World) (queue : SoloQueue) (team : List Ptr) : Prop :=
  ∃ heal a b,team=[heal,a,b] ∧ heal∈queue.queuedHealers ∧ Partners world queue heal a b

theorem Agree.nodup {queue : SoloQueue} (h : Agree queue) :
    (queue.allPlayersInQueue.map Prod.snd).Nodup := by
  have hguids : queue.allPlayersInQueue.map Prod.fst=
      (queue.allPlayersInQueue.map Prod.snd).map
        fun ptr => ((queue.heap ptr).map SoloQueueInfo.playerGuid).getD 0 := by
    rw [List.map_map]
    refine List.map_congr_left fun entry hentry => ?_
    obtain ⟨info,hinfo,hguid⟩ := h.live entry hentry
    simp only [Function.comp_apply,hinfo,Option.map_some,Option.getD_some,hguid]
  exact List.Nodup.of_map _ (hguids ▸ h.guids)

theorem Agree.nodup_members {queue : SoloQueue} (h : Agree queue) : (members queue).Nodup :=
  h.perm.nodup_iff.mpr h.nodup

/-- An entry of a multimap is an object, and the map names it. -/
theorem Agree.member {queue : SoloQueue} (h : Agree queue) {ptr : Ptr}
    (hptr : ptr∈members queue) :
    ∃ info,queue.heap ptr=some info ∧ (info.playerGuid,ptr)∈queue.allPlayersInQueue := by
  obtain ⟨⟨guid,ptr⟩,hentry,rfl⟩ := List.mem_map.mp (h.perm.mem_iff.mp hptr)
  obtain ⟨info,hinfo,rfl⟩ := h.live _ hentry
  exact ⟨info,hinfo,hentry⟩

/-- Entries of one guid are one entry. -/
theorem Agree.eq_of_guid {queue : SoloQueue} (h : Agree queue) {guid : Guid} {p q : Ptr}
    (hp : (guid,p)∈queue.allPlayersInQueue) (hq : (guid,q)∈queue.allPlayersInQueue) : p=q :=
  (Prod.mk.inj (List.inj_on_of_nodup_map h.guids hp hq rfl)).2

theorem mem_members {queue : SoloQueue} {ptr : Ptr} :
    ptr∈members queue ↔ ptr∈queue.queuedHealers ∨ ptr∈queue.queuedMelees ∨
      ptr∈queue.queuedRanges ∨ ptr∈queue.queuedDps := by
  simp only [members,List.mem_append]

theorem members_without (queue : SoloQueue) (ptrs : List Ptr) :
    members (without queue ptrs)=(members queue).filter (·∉ptrs) := by
  simp only [members,without,List.filter_append]

theorem Agree.remove {queue : SoloQueue} (h : Agree queue) (ptrs : List Ptr) :
    Agree (without queue ptrs) where
  live := fun entry hentry => by
    obtain ⟨hmem,hkeep⟩ := List.mem_filter.mp hentry
    obtain ⟨info,hinfo,hguid⟩ := h.live entry hmem
    exact ⟨info,(if_neg (of_decide_eq_true hkeep)).trans hinfo,hguid⟩
  guids := h.guids.sublist ((List.filter_sublist).map _)
  perm := by
    rw [members_without]
    have := h.perm.filter (·∉ptrs)
    rw [List.filter_map] at this
    exact this

theorem without_nil (queue : SoloQueue) : without queue []=queue := by
  simp [without]

theorem without_append (queue : SoloQueue) (ps qs : List Ptr) :
    without (without queue ps) qs=without queue (ps++qs) := by
  simp only [without,List.filter_filter,List.mem_append,not_or,SoloQueue.mk.injEq,and_true]
  refine ⟨?_,?_,?_,?_,?_,?_⟩
  · funext ptr
    by_cases hp : ptr∈ps
    · simp [hp]
    · simp [hp]
  all_goals exact List.filter_congr fun x _ => by simp [Bool.and_comm]

theorem without_congr (queue : SoloQueue) {ps qs : List Ptr} (h : ∀ p,p∈ps ↔ p∈qs) :
    without queue ps=without queue qs := by
  simp only [without,h]

theorem heap_without {queue : SoloQueue} {ptrs : List Ptr} {ptr : Ptr} {info : SoloQueueInfo}
    (h : (without queue ptrs).heap ptr=some info) : queue.heap ptr=some info := by
  simp only [without] at h
  split at h
  · cases h
  · exact h

/-- What two players can do in a smaller queue they can do in the larger one. -/
theorem Partners.of_without {world : World} {queue : SoloQueue} {ptrs : List Ptr}
    {heal a b : Ptr} (h : Partners world (without queue ptrs) heal a b) :
    Partners world queue heal a b := by
  have hcomp : ∀ {p},Compatible world (without queue ptrs) heal p → Compatible world queue heal p :=
    fun ⟨healInfo,info,hheal,hinfo,hin⟩ =>
      ⟨healInfo,info,heap_without hheal,heap_without hinfo,hin⟩
  have hclass : ∀ {p c},classOf world (without queue ptrs) p=some c → classOf world queue p=some c :=
    fun hc => by
      obtain ⟨info,hinfo,hclass⟩ := Option.bind_eq_some_iff.mp hc
      exact Option.bind_eq_some_iff.mpr ⟨info,heap_without hinfo,hclass⟩
  obtain ⟨hne,ha,hb,hlists⟩ := h
  refine ⟨hne,hcomp ha,hcomp hb,?_⟩
  cases hr : world.dpsRestriction with
  | true =>
    simp only [hr,if_true] at hlists ⊢
    exact ⟨List.mem_of_mem_filter hlists.1,List.mem_of_mem_filter hlists.2⟩
  | false =>
    simp only [hr,Bool.false_eq_true,if_false] at hlists ⊢
    obtain ⟨ha',hb',c,d,hc,hd,hcd⟩ := hlists
    exact ⟨List.mem_of_mem_filter ha',List.mem_of_mem_filter hb',c,d,hclass hc,hclass hd,hcd⟩

theorem Team.of_without {world : World} {queue : SoloQueue} {ptrs team : List Ptr}
    (h : Team world (without queue ptrs) team) : Team world queue team := by
  obtain ⟨heal,a,b,rfl,hheal,hpartners⟩ := h
  exact ⟨heal,a,b,rfl,List.mem_of_mem_filter hheal,hpartners.of_without⟩

theorem Partners.mem {world : World} {queue : SoloQueue} {heal a b : Ptr}
    (h : Partners world queue heal a b) :
    (∀ p∈[a,b],p∈queue.queuedMelees++ (queue.queuedRanges++ queue.queuedDps)) := by
  obtain ⟨-,-,-,hlists⟩ := h
  intro p hp
  simp only [List.mem_append]
  cases hr : world.dpsRestriction with
  | true =>
    simp only [hr,if_true] at hlists
    rcases List.mem_pair.mp hp with rfl|rfl
    · exact Or.inr (Or.inl hlists.1)
    · exact Or.inl hlists.2
  | false =>
    simp only [hr,Bool.false_eq_true,if_false] at hlists
    rcases List.mem_pair.mp hp with rfl|rfl
    · exact Or.inr (Or.inr hlists.1)
    · exact Or.inr (Or.inr hlists.2.1)

/-- A team is made of three different entries. -/
theorem Team.nodup {world : World} {queue : SoloQueue} {team : List Ptr} (hq : Agree queue)
    (h : Team world queue team) : team.Nodup ∧ ∀ p∈team,p∈members queue := by
  obtain ⟨heal,a,b,rfl,hheal,hpartners⟩ := h
  have hdisjoint := (List.nodup_append.mp hq.nodup_members).2.2
  have hmem := hpartners.mem
  have ha := hmem a (List.mem_pair.mpr (Or.inl rfl))
  have hb := hmem b (List.mem_pair.mpr (Or.inr rfl))
  constructor
  · simp only [List.nodup_cons,List.mem_cons,List.not_mem_nil,or_false,not_or,not_false_iff,
      List.nodup_nil,and_true]
    exact ⟨⟨hdisjoint _ hheal _ ha,hdisjoint _ hheal _ hb⟩,hpartners.1⟩
  · intro p hp
    rcases List.mem_cons.mp hp with rfl|hp
    · exact List.mem_append_left _ hheal
    · exact List.mem_append_right _ (hmem p hp)

/-- The loop over `allPlayersInQueue` treats every queued player once. -/
theorem updateMmrRanges_eq (world : World) {entries : List (Guid×Ptr)}
    {heap : Ptr → Option SoloQueueInfo} (hnodup : (entries.map Prod.snd).Nodup)
    (hlive : ∀ entry∈entries,∃ info,heap entry.2=some info) :
    updateMmrRanges world entries heap=
      some fun ptr => if ptr∈entries.map Prod.snd then (heap ptr).map (updateMmrRange world)
        else heap ptr := by
  induction entries generalizing heap with
  | nil => simp only [updateMmrRanges,List.map_nil,List.not_mem_nil,if_false]
  | cons entry entries ih =>
    obtain ⟨guid,ptr⟩ := entry
    rw [List.map_cons,List.nodup_cons] at hnodup
    obtain ⟨info,hinfo⟩ := hlive _ List.mem_cons_self
    have hlive' : ∀ entry∈entries,∃ info',
        Function.update heap ptr (some (updateMmrRange world info)) entry.2=some info' := by
      intro entry hentry
      have hne : entry.2≠ptr := fun he =>
        hnodup.1 (List.mem_map.mpr ⟨entry,hentry,he⟩)
      rw [Function.update_of_ne hne]
      exact hlive entry (List.mem_cons_of_mem _ hentry)
    simp only [updateMmrRanges,hinfo,Option.bind_eq_bind,Option.bind_some]
    rw [ih hnodup.2 hlive']
    congr 1
    funext p
    by_cases hp : p=ptr
    · subst hp
      simp [hnodup.1,hinfo]
    · simp only [Function.update_of_ne hp,List.map_cons,List.mem_cons,hp,false_or]

theorem Agree.rangeUpdate {queue : SoloQueue} (h : Agree queue) (world : World) :
    Agree (ranged world queue) where
  live := fun entry hentry => by
    obtain ⟨info,hinfo,hguid⟩ := h.live entry hentry
    refine ⟨updateMmrRange world info,?_,?_⟩
    · exact (if_pos (List.mem_map_of_mem hentry)).trans (by rw [hinfo,Option.map_some])
    rw [← hguid,updateMmrRange]
    simp only
    split
    · rfl
    · split <;> rfl
  guids := h.guids
  perm := h.perm

theorem findGuid_eq {heap : Ptr → Option SoloQueueInfo} {guid : Guid} {ptr : Ptr} {ptrs : List Ptr}
    (h : ∀ p∈ptrs,∃ info,heap p=some info ∧ (info.playerGuid=guid ↔ p=ptr)) :
    findGuid heap guid ptrs=some (if ptr∈ptrs then some ptr else none) := by
  induction ptrs with
  | nil => rfl
  | cons p ptrs ih =>
    obtain ⟨info,hinfo,hguid⟩ := h p List.mem_cons_self
    simp only [findGuid,hinfo,Option.bind_eq_bind,Option.bind_some,hguid]
    by_cases hp : p=ptr
    · simp [hp]
    · rw [if_neg hp,ih fun q hq => h q (List.mem_cons_of_mem p hq)]
      simp [Ne.symm hp]

theorem update_heap (queue : SoloQueue) (ptr : Ptr) :
    Function.update queue.heap ptr none=(without queue [ptr]).heap := by
  funext p
  by_cases hp : p=ptr
  · subst hp; simp [without]
  · simp [without,hp]

theorem erase_eq_filter {ptrs : List Ptr} (h : ptrs.Nodup) (ptr : Ptr) :
    ptrs.erase ptr=ptrs.filter (·∉[ptr]) := by
  rw [h.erase_eq_filter]
  exact List.filter_congr fun p _ => by simp only [bne,List.mem_singleton,decide_not]; rfl

theorem filter_absent {ptrs : List Ptr} {ptr : Ptr} (h : ptr∉ptrs) :
    ptrs=ptrs.filter (·∉[ptr]) := by
  refine (List.filter_eq_self.mpr fun p hp => ?_).symm
  simpa using fun he : p=ptr => h (he ▸ hp)

/-- The guid of an object names its own entry of the map only. -/
theorem Agree.guid_iff {queue : SoloQueue} (h : Agree queue) {p q : Ptr} {info info' : SoloQueueInfo}
    (hp : p∈members queue) (hq : q∈members queue) (hinfo : queue.heap p=some info)
    (hinfo' : queue.heap q=some info') : info.playerGuid=info'.playerGuid ↔ p=q := by
  obtain ⟨i,hi,hentry⟩ := h.member hp
  obtain ⟨j,hj,hentry'⟩ := h.member hq
  obtain rfl := Option.some.inj (hinfo.symm.trans hi)
  obtain rfl := Option.some.inj (hinfo'.symm.trans hj)
  constructor
  · intro he
    exact h.eq_of_guid (he ▸ hentry) hentry'
  · rintro rfl
    rw [Option.some.inj (hinfo.symm.trans hinfo')]

/-- Erasing by guid is erasing by object. -/
theorem Agree.filter_guid {queue : SoloQueue} (h : Agree queue) {ptr : Ptr} {info : SoloQueueInfo}
    (hptr : ptr∈members queue) (hinfo : queue.heap ptr=some info) :
    (queue.allPlayersInQueue.filter fun entry => entry.1≠info.playerGuid)=
      (without queue [ptr]).allPlayersInQueue := by
  refine List.filter_congr fun entry he => ?_
  obtain ⟨info',hinfo',hguid⟩ := h.live _ he
  have hmem : entry.2∈members queue := h.perm.mem_iff.mpr (List.mem_map_of_mem he)
  have : entry.1≠info.playerGuid ↔ entry.2∉[ptr] := by
    rw [List.mem_singleton,← hguid]
    exact not_congr (h.guid_iff hmem hptr hinfo' hinfo)
  exact decide_eq_decide.mpr this

/-- The four multimaps have no entry twice. -/
theorem Agree.lists {queue : SoloQueue} (h : Agree queue) :
    queue.queuedHealers.Nodup ∧ queue.queuedMelees.Nodup ∧ queue.queuedRanges.Nodup ∧
      queue.queuedDps.Nodup ∧
      (∀ p∈queue.queuedHealers,
        p∉queue.queuedMelees ∧ p∉queue.queuedRanges ∧ p∉queue.queuedDps) ∧
      (∀ p∈queue.queuedMelees,p∉queue.queuedRanges ∧ p∉queue.queuedDps) ∧
      ∀ p∈queue.queuedRanges,p∉queue.queuedDps := by
  have hnodup := h.nodup_members
  rw [members,List.nodup_append,List.nodup_append,List.nodup_append] at hnodup
  obtain ⟨hnh,⟨hnm,⟨hnr,hnd,hrd⟩,hmr⟩,hhm⟩ := hnodup
  simp only [List.mem_append] at hhm hmr
  exact ⟨hnh,hnm,hnr,hnd,
    fun p hp => ⟨fun hq => hhm p hp p (Or.inl hq) rfl,fun hq => hhm p hp p (Or.inr (Or.inl hq)) rfl,
      fun hq => hhm p hp p (Or.inr (Or.inr hq)) rfl⟩,
    fun p hp => ⟨fun hq => hmr p hp p (Or.inl hq) rfl,fun hq => hmr p hp p (Or.inr hq) rfl⟩,
    fun p hp hq => hrd p hp p hq rfl⟩

/-- Taking a healer out where the iterator stands. -/
theorem Agree.eraseHealer {queue : SoloQueue} (h : Agree queue) {ptr : Ptr} {info : SoloQueueInfo}
    (hptr : ptr∈queue.queuedHealers) (hinfo : queue.heap ptr=some info) :
    ({ queue with
      heap := Function.update queue.heap ptr none
      queuedHealers := queue.queuedHealers.erase ptr
      allPlayersInQueue :=
        queue.allPlayersInQueue.filter fun entry => entry.1≠info.playerGuid } : SoloQueue)=
      without queue [ptr] := by
  obtain ⟨hnh,-,-,-,hhealers,-⟩ := h.lists
  obtain ⟨hm,hr,hd⟩ := hhealers ptr hptr
  rw [update_heap,erase_eq_filter hnh,
    h.filter_guid (mem_members.mpr (Or.inl hptr)) hinfo,SoloQueue.mk.injEq]
  exact ⟨rfl,rfl,filter_absent hm,filter_absent hr,filter_absent hd,rfl,rfl⟩

/-- `RemovePlayer` takes a queued player out of every container. -/
theorem RemovePlayer_eq {queue : SoloQueue} (h : Agree queue) {ptr : Ptr} {info : SoloQueueInfo}
    (hptr : ptr∈members queue) (hinfo : queue.heap ptr=some info) :
    RemovePlayer queue info.playerGuid=some (without queue [ptr],true) := by
  have hfind : ∀ {ptrs : List Ptr},(∀ p∈ptrs,p∈members queue) →
      findGuid queue.heap info.playerGuid ptrs=some (if ptr∈ptrs then some ptr else none) := by
    refine fun {ptrs} hptrs => findGuid_eq fun p hp => ?_
    obtain ⟨info',hinfo',-⟩ := h.member (hptrs p hp)
    exact ⟨info',hinfo',h.guid_iff (hptrs p hp) hptr hinfo' hinfo⟩
  have hr := hfind fun p hp => mem_members.mpr (Or.inr (Or.inr (Or.inl hp)))
  have hh := hfind fun p hp => mem_members.mpr (Or.inl hp)
  have hm := hfind fun p hp => mem_members.mpr (Or.inr (Or.inl hp))
  have hd := hfind fun p hp => mem_members.mpr (Or.inr (Or.inr (Or.inr hp)))
  have hall := h.filter_guid hptr hinfo
  obtain ⟨hnh,hnm,hnr,hnd,hhealers,hmelees,hranges⟩ := h.lists
  simp only [RemovePlayer,SoloQueue.delete,update_heap,hall,hr,hh,hm,hd,Option.bind_eq_bind,
    Option.bind_some,Option.pure_def]
  by_cases h1 : ptr∈queue.queuedRanges
  · have h2 : ptr∉queue.queuedHealers := fun hp => (hhealers ptr hp).2.1 h1
    have h3 : ptr∉queue.queuedMelees := fun hp => (hmelees ptr hp).1 h1
    simp only [h1,if_true]
    rw [erase_eq_filter hnr,Option.some.injEq,Prod.mk.injEq,SoloQueue.mk.injEq]
    exact ⟨⟨rfl,filter_absent h2,filter_absent h3,rfl,filter_absent (hranges ptr h1),rfl,rfl⟩,rfl⟩
  simp only [h1,if_false]
  by_cases h2 : ptr∈queue.queuedHealers
  · obtain ⟨h3,-,h4⟩ := hhealers ptr h2
    simp only [h2,if_true]
    rw [erase_eq_filter hnh,Option.some.injEq,Prod.mk.injEq,SoloQueue.mk.injEq]
    exact ⟨⟨rfl,rfl,filter_absent h3,filter_absent h1,filter_absent h4,rfl,rfl⟩,rfl⟩
  simp only [h2,if_false]
  by_cases h3 : ptr∈queue.queuedMelees
  · simp only [h3,if_true]
    rw [erase_eq_filter hnm,Option.some.injEq,Prod.mk.injEq,SoloQueue.mk.injEq]
    exact ⟨⟨rfl,filter_absent h2,rfl,filter_absent h1,filter_absent (hmelees ptr h3).2,rfl,rfl⟩,rfl⟩
  simp only [h3,if_false]
  have h4 : ptr∈queue.queuedDps := by
    rcases mem_members.mp hptr with h|h|h|h
    · exact absurd h h2
    · exact absurd h h3
    · exact absurd h h1
    · exact h
  simp only [h4,if_true]
  rw [erase_eq_filter hnd,Option.some.injEq,Prod.mk.injEq,SoloQueue.mk.injEq]
  exact ⟨⟨rfl,filter_absent h2,filter_absent h3,filter_absent h1,rfl,rfl,rfl⟩,rfl⟩

end Projectnelth.SoloQueueTeams
