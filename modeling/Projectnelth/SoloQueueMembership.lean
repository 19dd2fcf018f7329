import Mathlib
import Projectnelth.SoloQueueJoining

/-!
# Membership of the solo queue

The containers agree with each other along every run, and a player is in them as long as
`AddPlayer` was the last to decide. An admission that finds a category adds one entry to the map
and one to a multimap; the requirements see to it that the player has none yet.
-/

namespace Projectnelth.SoloQueueMembership

open SoloQueueModel SoloQueueTeams SoloQueueJoining RunInvariant

variable {queue queue' : SoloQueue} {guid : Guid} {ptr : Ptr}

/-- The guids of `allPlayersInQueue`. -/
def keys (queue : SoloQueue) : List Guid := queue.allPlayersInQueue.map Prod.fst

theorem mem_keys : guid∈keys queue ↔ ∃ ptr,(guid,ptr)∈queue.allPlayersInQueue := by
  unfold keys
  constructor
  · intro h
    obtain ⟨entry,hentry,rfl⟩ := List.mem_map.mp h
    exact ⟨entry.2,hentry⟩
  · rintro ⟨ptr,hentry⟩
    exact List.mem_map_of_mem hentry

theorem any_guid_iff : queue.allPlayersInQueue.any (·.1=guid)=true ↔ guid∈keys queue := by
  unfold keys
  simp

/-! ## Counting the entries of a player -/

theorem count_entries (h : Agree queue) (hentry : (guid,ptr)∈queue.allPlayersInQueue)
    {ptrs : List Ptr} (hptrs : ∀ p∈ptrs,p∈members queue) :
    ptrs.countP (fun p => (queue.heap p).any (·.playerGuid=guid))=ptrs.count ptr := by
  refine List.countP_congr fun p hp => ?_
  obtain ⟨info,hinfo,hguid⟩ := h.live _ hentry
  obtain ⟨info',hinfo',-⟩ := h.member (hptrs p hp)
  have hmem : ptr∈members queue := h.perm.mem_iff.mpr (List.mem_map_of_mem hentry)
  have hiff := h.guid_iff (hptrs p hp) hmem hinfo' hinfo
  rw [hguid] at hiff
  rw [hinfo',Option.any_some,decide_eq_true_eq,hiff,beq_iff_eq]

/-- Without an entry in the map there is none in the multimaps. -/
theorem count_absent (h : Agree queue) (habsent : guid∉keys queue)
    {ptrs : List Ptr} (hptrs : ∀ p∈ptrs,p∈members queue) :
    ptrs.countP (fun p => (queue.heap p).any (·.playerGuid=guid))=0 := by
  refine List.countP_eq_zero.mpr fun p hp hguid => ?_
  obtain ⟨info,hinfo,hentry⟩ := h.member (hptrs p hp)
  rw [hinfo,Option.any_some,decide_eq_true_eq] at hguid
  exact habsent (mem_keys.mpr ⟨p,hguid ▸ hentry⟩)

theorem listOf_subset (category : SoloQueueTalentCategory) :
    ∀ p∈listOf queue category,p∈members queue := by
  intro p hp
  rw [mem_members]
  cases category with
  | unknown => cases hp
  | range => exact Or.inr (Or.inr (Or.inl hp))
  | healer => exact Or.inl hp
  | melee => exact Or.inr (Or.inl hp)
  | dps => exact Or.inr (Or.inr (Or.inr hp))

/-- A player of the map is once in exactly one multimap. -/
theorem one_category (h : Agree queue) (hentry : (guid,ptr)∈queue.allPlayersInQueue) :
    ∃ category,entriesOf queue category guid=1 ∧
      ∀ other,other≠category → entriesOf queue other guid=0 := by
  have hentries : ∀ category,entriesOf queue category guid=(listOf queue category).count ptr :=
    fun category => count_entries h hentry (listOf_subset category)
  have hmem : ptr∈members queue := h.perm.mem_iff.mpr (List.mem_map_of_mem hentry)
  have htotal : (members queue).count ptr=1 := List.count_eq_one_of_mem h.nodup_members hmem
  simp only [members,List.count_append] at htotal
  simp only [hentries]
  have hwhich : ∀ category : SoloQueueTalentCategory,(listOf queue category).count ptr=1 →
      ∀ other,other≠category → (listOf queue other).count ptr=0 := by
    intro category hone other hne
    cases category <;> cases other <;>
      first
      | exact absurd rfl hne
      | rfl
      | simp only [listOf,List.count_nil] at hone ⊢; omega
  rcases mem_members.mp hmem with hin | hin | hin | hin
  · have hpos := List.count_pos_iff.mpr hin
    have hone : (listOf queue .healer).count ptr=1 := by simp only [listOf]; omega
    exact ⟨.healer,hone,hwhich _ hone⟩
  · have hpos := List.count_pos_iff.mpr hin
    have hone : (listOf queue .melee).count ptr=1 := by simp only [listOf]; omega
    exact ⟨.melee,hone,hwhich _ hone⟩
  · have hpos := List.count_pos_iff.mpr hin
    have hone : (listOf queue .range).count ptr=1 := by simp only [listOf]; omega
    exact ⟨.range,hone,hwhich _ hone⟩
  · have hpos := List.count_pos_iff.mpr hin
    have hone : (listOf queue .dps).count ptr=1 := by simp only [listOf]; omega
    exact ⟨.dps,hone,hwhich _ hone⟩

/-! ## `AddPlayer` -/

theorem emplace_perm (heap : Ptr → Option SoloQueueInfo) (mmr : UInt32) (ptr : Ptr)
    (ptrs : List Ptr) : (emplace heap mmr ptr ptrs).Perm (ptr::ptrs) := by
  unfold emplace
  refine List.perm_middle.trans (List.Perm.cons ptr ?_)
  rw [List.takeWhile_append_dropWhile]

theorem emplaceGuid_perm {entries : List (Guid×Ptr)} (ptr : Ptr)
    (h : entries.any (·.1=guid)=false) :
    (emplaceGuid guid ptr entries).Perm ((guid,ptr)::entries) := by
  unfold emplaceGuid
  rw [if_neg (by rw [h]; exact Bool.false_ne_true)]
  refine List.perm_middle.trans (List.Perm.cons _ ?_)
  rw [List.takeWhile_append_dropWhile]

/-- A new object enters the map and one multimap. -/
structure Entered (queue queue' : SoloQueue) (guid : Guid) (ptr : Ptr) : Prop where
  /-- The object is there, the others as before. -/
  heap : ∃ info,info.playerGuid=guid ∧ queue'.heap=Function.update queue.heap ptr (some info)
  /-- One multimap has a new entry. -/
  members : (members queue').Perm (ptr::members queue)
  /-- The map has a new entry. -/
  all : queue'.allPlayersInQueue.Perm ((guid,ptr)::queue.allPlayersInQueue)

theorem agree_enter (h : Agree queue) (hfresh : queue.heap ptr=none) (hguid : guid∉keys queue)
    (hentered : Entered queue queue' guid ptr) : Agree queue' := by
  obtain ⟨info,hinfo,hheap⟩ := hentered.heap
  refine ⟨fun entry hentry => ?_,?_,?_⟩
  · rw [hheap]
    rcases List.mem_cons.mp (hentered.all.mem_iff.mp hentry) with rfl | hold
    · exact ⟨info,Function.update_self .. ,hinfo⟩
    obtain ⟨info',hinfo',hguid'⟩ := h.live entry hold
    have hne : entry.2≠ptr := fun heq => by
      rw [heq,hfresh] at hinfo'
      cases hinfo'
    exact ⟨info',(Function.update_of_ne hne ..).trans hinfo',hguid'⟩
  · rw [(hentered.all.map Prod.fst).nodup_iff,List.map_cons,List.nodup_cons]
    exact ⟨hguid,h.guids⟩
  · exact hentered.members.trans ((h.perm.cons ptr).trans (hentered.all.map Prod.snd).symm)

theorem keys_enter (hentered : Entered queue queue' guid ptr) (other : Guid) :
    other∈keys queue' ↔ other=guid ∨ other∈keys queue := by
  unfold keys
  rw [(hentered.all.map Prod.fst).mem_iff,List.map_cons,List.mem_cons]

theorem absent_of_admits {settings : Settings} {ids : QueueIds} {player : Applicant}
    (htesting : settings.isTesting=false) (h : admits settings queue ids player=true) :
    player.guid∉keys queue := by
  intro hmem
  have hany := any_guid_iff.mpr hmem
  unfold admits CheckRequirements IsPlayerInSoloQueue at h
  rw [htesting,hany] at h
  simp at h

theorem entered_addPlayer {settings : Settings} {ids : QueueIds} {player : Applicant}
    (address : Ptr) (h : admits settings queue ids player=true)
    (hcategory : GetPlayerTalentCategory settings player≠.unknown)
    (habsent : player.guid∉keys queue) :
    Entered queue (AddPlayer settings queue ids player address).1 player.guid address := by
  obtain ⟨hcheck,hteam⟩ := Bool.and_eq_true_iff.mp h
  obtain ⟨⟨rating,teamId⟩,hat⟩ := Option.isSome_iff_exists.mp hteam
  have hany : queue.allPlayersInQueue.any (·.1=player.guid)=false :=
    Bool.eq_false_iff.mpr fun hany => habsent (any_guid_iff.mp hany)
  have hall := emplaceGuid_perm address hany
  have hlist : ∀ ptrs,(emplace queue.heap player.mmr address ptrs).Perm (address::ptrs) :=
    emplace_perm queue.heap player.mmr address
  have hlater : ∀ {l ptrs ptrs' : List Ptr},ptrs'.Perm (address::ptrs) →
      (l++ptrs').Perm (address::(l++ptrs)) := fun h => (h.append_left _).trans List.perm_middle
  unfold AddPlayer
  rw [if_pos hcheck,hat]
  dsimp only
  split
  · exact ⟨⟨_,rfl,rfl⟩,(hlist _).append_right _,hall⟩
  · exact ⟨⟨_,rfl,rfl⟩,hlater ((hlist _).append_right _),hall⟩
  · exact ⟨⟨_,rfl,rfl⟩,hlater (hlater ((hlist _).append_right _)),hall⟩
  · exact ⟨⟨_,rfl,rfl⟩,hlater (hlater (hlater (hlist _))),hall⟩
  · exact absurd ‹_› hcategory

theorem addPlayer_refused {settings : Settings} {ids : QueueIds} {player : Applicant}
    (address : Ptr) (h : admits settings queue ids player=false) :
    AddPlayer settings queue ids player address=(queue,ids) := by
  unfold AddPlayer
  split
  · rename_i hcheck
    rw [admits,hcheck,Bool.true_and] at h
    cases hteam : player.arenaTeam with
    | none => rfl
    | some at' => rw [hteam] at h; cases h
  · rfl

/-! ## `RemovePlayer` -/

theorem removePlayer_absent (h : Agree queue) (habsent : guid∉keys queue) :
    RemovePlayer queue guid=some (queue,false) := by
  have hall : (queue.allPlayersInQueue.filter fun entry => entry.1≠guid)=
      queue.allPlayersInQueue := List.filter_eq_self.mpr fun entry hentry =>
    decide_eq_true fun heq => habsent (mem_keys.mpr ⟨entry.2,heq ▸ hentry⟩)
  have hnone : ∀ category,findGuid queue.heap guid (listOf queue category)=some none := by
    intro category
    generalize hptrs : listOf queue category=ptrs
    have hsubset : ∀ p∈ptrs,p∈members queue := hptrs ▸ listOf_subset category
    clear hptrs
    induction ptrs with
    | nil => rfl
    | cons p ptrs ih =>
      obtain ⟨info,hinfo,hentry⟩ := h.member (hsubset p List.mem_cons_self)
      have hne : info.playerGuid≠guid := fun heq => habsent (mem_keys.mpr ⟨p,heq ▸ hentry⟩)
      simp only [findGuid,hinfo,Option.bind_eq_bind,Option.bind_some]
      rw [if_neg hne]
      exact ih fun q hq => hsubset q (List.mem_cons_of_mem p hq)
  have hrange := hnone .range
  have hhealer := hnone .healer
  have hmelee := hnone .melee
  have hdps := hnone .dps
  simp only [listOf] at hrange hhealer hmelee hdps
  simp only [RemovePlayer,hall,hrange,hhealer,hmelee,hdps,Option.bind_eq_bind,Option.bind_some,
    Option.pure_def]

/-- `RemovePlayer` keeps the agreement and takes the player, and nobody else, out. -/
theorem removePlayer_spec (h : Agree queue) (guid : Guid) :
    ∃ queue' found,RemovePlayer queue guid=some (queue',found) ∧ Agree queue' ∧
      ∀ other,other∈keys queue' ↔ other∈keys queue ∧ other≠guid := by
  by_cases hmem : guid∈keys queue
  · obtain ⟨ptr,hentry⟩ := mem_keys.mp hmem
    obtain ⟨info,hinfo,hguid⟩ := h.live _ hentry
    have hptr : ptr∈members queue := h.perm.mem_iff.mpr (List.mem_map_of_mem hentry)
    have hguid : info.playerGuid=guid := hguid
    have hremove := RemovePlayer_eq h hptr hinfo
    rw [hguid] at hremove
    refine ⟨_,_,hremove,h.remove [ptr],fun other => ?_⟩
    rw [keys,← h.filter_guid hptr hinfo,hguid]
    simp only [keys,List.mem_map,List.mem_filter,decide_eq_true_eq]
    constructor
    · rintro ⟨entry,⟨hentry,hne⟩,rfl⟩
      exact ⟨⟨entry,hentry,rfl⟩,hne⟩
    · rintro ⟨⟨entry,hentry,rfl⟩,hne⟩
      exact ⟨entry,⟨hentry,hne⟩,rfl⟩
  · refine ⟨_,_,removePlayer_absent h hmem,h,fun other => ⟨fun hother => ⟨hother,?_⟩,And.left⟩⟩
    rintro rfl
    exact hmem hother

/-! ## Runs -/

/-- What the steps keep: the containers agree and hold who was given the id and not removed. -/
def Inv (state : Option State) : Prop :=
  ∃ s,state=some s ∧ Agree s.queue ∧ ∀ guid,guid∈s.given ↔ guid∈keys s.queue

/-- Testing is off, and `new` gives an address at which no object lives. -/
def Possible (state : Option State) (action : Action) : Prop :=
  match state,action with
  | some s,.add settings _ address => settings.isTesting=false ∧ s.queue.heap address=none
  | _,_ => True

/-- Who is admitted has a category. -/
def Classified (state : Option State) (action : Action) : Prop :=
  match state,action with
  | some s,.add settings player _ =>
    admits settings s.queue (s.ids player.guid) player=true →
      GetPlayerTalentCategory settings player≠.unknown
  | _,_ => True

theorem step_add (s : State) (settings : Settings) (player : Applicant) (address : Ptr) :
    step (some s) (.add settings player address)=
      some ⟨(AddPlayer settings s.queue (s.ids player.guid) player address).1,
        Function.update s.ids player.guid
          (AddPlayer settings s.queue (s.ids player.guid) player address).2,
        if admits settings s.queue (s.ids player.guid) player=true then player.guid::s.given
        else s.given⟩ := rfl

theorem inv_step {state : Option State} {action : Action} (h : Inv state)
    (hmeets : Possible state action ∧ Classified state action) : Inv (step state action) := by
  obtain ⟨s,rfl,hagree,hgiven⟩ := h
  cases action with
  | add settings player address =>
    obtain ⟨⟨htesting,hfresh⟩,hclassified⟩ := hmeets
    refine ⟨_,step_add s settings player address,?_⟩
    dsimp only
    cases hadmits : admits settings s.queue (s.ids player.guid) player with
    | false =>
      rw [addPlayer_refused address hadmits]
      exact ⟨hagree,hgiven⟩
    | true =>
      have habsent := absent_of_admits htesting hadmits
      have hentered := entered_addPlayer address hadmits (hclassified hadmits) habsent
      refine ⟨agree_enter hagree hfresh habsent hentered,fun guid => ?_⟩
      rw [if_pos rfl,keys_enter hentered,List.mem_cons,hgiven]
  | remove guid =>
    obtain ⟨queue',found,hremove,hagree',hkeys⟩ := removePlayer_spec hagree guid
    refine ⟨⟨queue',s.ids,s.given.filter (·≠guid)⟩,?_,hagree',fun other => ?_⟩
    · simp only [step,Option.bind_eq_bind,Option.bind_some,hremove]
      rfl
    · rw [hkeys,List.mem_filter,hgiven,decide_eq_true_eq]
  | setIds guid ids => exact ⟨_,rfl,hagree,hgiven⟩

theorem inv_empty (lastUpdateTime : UInt32) (ids : Guid → QueueIds) :
    Inv (some (State.empty lastUpdateTime ids)) :=
  ⟨_,rfl,⟨(by rintro _ ⟨⟩),List.nodup_nil,List.Perm.refl _⟩,fun _ => Iff.rfl⟩

theorem mirrored_of_inv {s : State} (hagree : Agree s.queue)
    (hgiven : ∀ guid,guid∈s.given ↔ guid∈keys s.queue) : Mirrored s := by
  refine ⟨fun guid => ?_,fun guid habsent => ?_⟩
  · rw [hgiven,mem_keys]
    exact ⟨fun hentry => ⟨hentry,one_category hagree hentry.choose_spec⟩,And.left⟩
  · rw [hgiven] at habsent
    exact ⟨fun ptr hentry => habsent (mem_keys.mpr ⟨ptr,hentry⟩),fun category =>
      count_absent hagree habsent (listOf_subset category)⟩

/-- Along every run of joins and leaves whose admitted players have a category, a player who was
given the id of the solo queue and not removed since is in the map of all players and in exactly
one multimap, and nobody else is in any container. -/
theorem solo_queue_mirrored (lastUpdateTime : UInt32) (ids : Guid → QueueIds)
    (actions : List Action)
    (hmeets : Meets step (fun state action => Possible state action ∧ Classified state action)
      (some (State.empty lastUpdateTime ids)) actions) :
    ∃ s,run step (some (State.empty lastUpdateTime ids)) actions=some s ∧ Mirrored s := by
  obtain ⟨s,hs,hagree,hgiven⟩ := run_invariant (fun _ _ h ha => inv_step h ha)
    (inv_empty lastUpdateTime ids) hmeets
  exact ⟨s,hs,mirrored_of_inv hagree hgiven⟩

/-- A player who meets the requirements. -/
def applicant (talentTree : TalentTree) : Applicant where
  guid := 7
  deserter := false
  inBattleground := false
  freeTalentPoints := 0
  talentTree := talentTree
  bloodPresence := false
  bearForm := false
  catForm := false
  usingLfg := false
  equipped := fun _ => true
  averageItemLevel := 380
  arenaTeam := some (1500,1)
  mmr := 1500
  team := 67

/-- A mage joins, leaves and joins again with the id taken back in between. -/
theorem solo_queue_mirrored_sample :
    ∃ s,run step (some (State.empty 0 fun _ => (.none,.none)))
      [.add ⟨false,true,0⟩ (applicant .mageFire) 1,.remove 7,.setIds 7 (.none,.none),
        .add ⟨false,false,0⟩ (applicant .mageFire) 1]=some s ∧ Mirrored s :=
  solo_queue_mirrored 0 (fun _ => (.none,.none)) _
    ⟨⟨⟨rfl,rfl⟩,fun _ => by decide⟩,⟨trivial,trivial⟩,⟨trivial,trivial⟩,
      ⟨⟨rfl,rfl⟩,fun _ => by decide⟩,trivial⟩

/-- A blood death knight outside of the blood presence is given the id and entered nowhere. -/
theorem blood_knight_unlisted :
    ∃ s,step (some (State.empty 0 fun _ => (.none,.none)))
        (.add ⟨false,true,0⟩ (applicant .deathKnightBlood) 1)=some s ∧
      7∈s.given ∧ s.queue.allPlayersInQueue=[] ∧ ¬Mirrored s := by
  refine ⟨_,rfl,by decide,rfl,fun h => ?_⟩
  obtain ⟨⟨ptr,hentry⟩,-⟩ := (h.member 7).mp (by decide)
  cases hentry

end Projectnelth.SoloQueueMembership
