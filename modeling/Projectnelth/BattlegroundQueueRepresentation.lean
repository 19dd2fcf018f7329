import Mathlib
import Projectnelth.BattlegroundQueueInvariant
import Projectnelth.RunInvariant

/-!
# The representation of the battleground queue over its runs

Every part of an update pass keeps the groups in place or moves one from a list
of its team to another one, so that the representation invariant holds in every
state of a run.
-/

namespace Projectnelth.BattlegroundQueueModel

open Team BattlegroundQueueGroupTypes BattlegroundQueue RunInvariant

section

variable {q q' : BattlegroundQueue} {place : Places} {ginfo : Ptr}
  {bracket_id : BattlegroundBracketId}

/-- The invariant, wherever the groups are. -/
def Kept (q : BattlegroundQueue) : Prop := ∃ place,Placed q place

theorem Kept.frame (h : Kept q) (hf : ∀ place,Placed q place → Frame place q q') : Kept q' := by
  obtain ⟨place,hplace⟩ := h
  exact ⟨place,hplace.frame (hf place hplace)⟩

theorem Kept.pools (h : Kept q) (pools : Team → SelectionPool) :
    Kept { q with m_SelectionPools := pools } :=
  h.frame fun place _ => (Frame.refl place q).pools pools

theorem Kept.invitePools (h : Kept q) (world : World) (bg : Battleground) :
    Kept (invitePools world bg q) :=
  h.frame fun _ _ => frame_invitePools world bg

theorem frame_fillMixed (free : Team → ℕ) {groups : List Ptr} {vali vhorde : ℤ}
    (hgroups : ∀ p∈groups,sideAt place p=none) : Frame place q (fillMixed free groups vali vhorde q) := by
  induction groups generalizing q vali vhorde with
  | nil => exact Frame.refl place q
  | cons p rest ih =>
    have hrest : ∀ p∈rest,sideAt place p=none := fun p hp => hgroups p (List.mem_cons_of_mem _ hp)
    have hsided : ∀ side,Frame place q (q.modify p fun g => { g with Team := side }) := fun side =>
      frame_modify (fun _ => rfl) fun team hteam => by
        rw [hgroups p List.mem_cons_self] at hteam
        cases hteam
    unfold fillMixed
    split
    · exact ih hrest
    extract_lets sided team added next
    have hnext : Frame place q next := by
      refine Frame.pools ?_ _
      unfold sided
      split
      · exact hsided _
      · exact Frame.refl place q
    split
    · split
      · exact hnext.trans (ih hrest)
      · exact hnext.trans (ih hrest)
    · exact hnext.trans (ih hrest)

theorem mem_bySize {groups : List Ptr} : ginfo∈bySize q groups ↔ ginfo∈groups := by
  unfold bySize
  rw [List.mem_reverse,StableMultimap.mem_insertAll]
  simp

theorem frame_FillXPlayersToBG (h : Placed q place) (world : World) (bg : Battleground)
    (start : Bool) (minPlayers maxPlayers : ℕ) :
    Frame place q (FillXPlayersToBG world bracket_id bg start minPlayers maxPlayers q).1 := by
  have hmixed : ∀ p∈bySize q (q.m_QueuedGroups (bracket_id,BG_QUEUE_MIXED)),sideAt place p=none := by
    intro p hp
    have := (mem_lists h.toRegistered).mp (mem_bySize.mp hp)
    simp [sideAt,this,BattlegroundQueueGroupTypes.side]
  unfold FillXPlayersToBG
  extract_lets mixed waiting queuedPeople free pools alliance horde queued smallest ali both
  split
  · split
    · exact ((Frame.refl place q).pools _).trans (frame_fillMixed _ hmixed)
    · exact ((Frame.refl place q).pools _).trans (frame_fillMixed _ hmixed)
  · exact Frame.refl place q

theorem frame_FillPlayersToBG (h : Placed q place) (world : World) (bg : Battleground) :
    Frame place q (FillPlayersToBG world bg bracket_id q) := by
  have hmixed : Frame place q
      (if bg.isArena then (q,false) else FillXPlayersToBG world bracket_id bg false 0 0 q).1 := by
    split
    · exact Frame.refl place q
    · exact frame_FillXPlayersToBG h world bg false 0 0
  unfold FillPlayersToBG
  extract_lets mixed q' free itr filled
  split
  · exact hmixed
  · split
    · exact hmixed.pools _
    · exact hmixed.pools _

theorem Kept.fillFreeSlots (h : Kept q) (world : World) (bgTypeId : ℕ) (bgs : List Battleground) :
    Kept (fillFreeSlots world bgTypeId bracket_id bgs q) := by
  induction bgs generalizing q with
  | nil => exact h
  | cons bg rest ih =>
    unfold BattlegroundQueueModel.fillFreeSlots
    split
    · have hfilled : Kept (FillPlayersToBG world bg bracket_id
          { q with m_SelectionPools := fun _ => SelectionPool.Init }) :=
        (h.pools _).frame fun place hplace => frame_FillPlayersToBG hplace world bg
      exact ih (hfilled.invitePools world bg)
    · exact ih h

/-- A move within the lists of the group's team. -/
theorem Placed.move (h : Placed q place) {old new : Slot} (hp : place ginfo=some old)
    (hteam : ∀ team,new.2.side=some team → (q.info ginfo).Team=team) :
    Placed (q.move ginfo old new) (Function.update place ginfo (some new)) := by
  refine ⟨h.toRegistered.move new hp,fun p team hside => ?_⟩
  simp only [sideAt,Function.update_apply] at hside
  by_cases hpg : p=ginfo
  · rw [if_pos hpg] at hside
    rw [hpg]
    exact hteam team hside
  · rw [if_neg hpg] at hside
    exact h.side p team hside

theorem Kept.premadeToNormal (h : Kept q) (world : World) (MinPlayersPerTeam : ℕ) (team : Team) :
    Kept (premadeToNormal world bracket_id MinPlayersPerTeam team q) := by
  obtain ⟨place,hplace⟩ := h
  unfold BattlegroundQueueModel.premadeToNormal
  split
  · exact ⟨place,hplace⟩
  rename_i p rest hlist
  split
  · have hp := (mem_lists hplace.toRegistered).mp (by rw [hlist]; exact List.mem_cons_self)
    refine ⟨_,hplace.move hp fun side hside => ?_⟩
    exact hplace.side p side (by rw [sideAt,hp]; exact hside)
  · exact ⟨place,hplace⟩

theorem Kept.CheckPremadeMatch (h : Kept q) (world : World)
    (MinPlayersPerTeam MaxPlayersPerTeam : ℕ) :
    Kept (CheckPremadeMatch world bracket_id MinPlayersPerTeam MaxPlayersPerTeam q).1 := by
  simp only [BattlegroundQueueModel.CheckPremadeMatch]
  split
  · exact h.pools _
  · exact (h.premadeToNormal world MinPlayersPerTeam ALLIANCE).premadeToNormal world
      MinPlayersPerTeam HORDE

theorem Kept.checkPremade (h : Kept q) (world : World) (MinPlayersPerTeam MaxPlayersPerTeam : ℕ) :
    Kept (checkPremade world bracket_id MinPlayersPerTeam MaxPlayersPerTeam q).1 := by
  have hmatch : Kept
      (BattlegroundQueueModel.CheckPremadeMatch world bracket_id MinPlayersPerTeam
        MaxPlayersPerTeam q).1 :=
    h.CheckPremadeMatch world MinPlayersPerTeam MaxPlayersPerTeam
  unfold BattlegroundQueueModel.checkPremade
  split
  · rename_i hq
    rw [hq] at hmatch
    exact hmatch
  · rename_i hq
    rw [hq] at hmatch
    split
    · exact hmatch
    · exact (hmatch.invitePools world _).pools _

theorem Kept.CheckNormalMatch (h : Kept q) (world : World) (minPlayers maxPlayers : ℕ) :
    Kept (CheckNormalMatch world bracket_id minPlayers maxPlayers q).1 := by
  unfold BattlegroundQueueModel.CheckNormalMatch
  extract_lets normal ali both count enough verdict j itr_team more
  split
  · split
    · exact h.pools more
    · exact h.pools more
  · exact h.pools both.1

theorem addWaiting_sublist (team : Team) (desired : ℕ) (groups : List Ptr) (pools : Pools) :
    ∃ chosen,chosen.Sublist groups ∧
      (addWaiting q team desired groups pools team).SelectedGroups=
        (pools team).SelectedGroups++chosen := by
  induction groups generalizing pools with
  | nil => exact ⟨[],List.Sublist.refl _,by simp [addWaiting]⟩
  | cons p rest ih =>
    have hadd : ∃ first,first.Sublist [p] ∧
        ((addTo q pools team p desired).1 team).SelectedGroups=
          (pools team).SelectedGroups++first := by
      simp only [addTo,Function.update_self,SelectionPool.AddGroup]
      split
      · exact ⟨[p],List.Sublist.refl _,rfl⟩
      · exact ⟨[],List.nil_sublist _,by simp⟩
    obtain ⟨first,hfirst,hpool⟩ := hadd
    rw [addWaiting]
    split
    · obtain ⟨chosen,hchosen,heq⟩ := ih pools
      exact ⟨chosen,hchosen.cons p,heq⟩
    · cases hadded : addTo q pools team p desired with
      | mk pools' more =>
        rw [hadded] at hpool
        cases more with
        | true =>
          obtain ⟨chosen,hchosen,heq⟩ := ih pools'
          refine ⟨first++chosen,hfirst.append hchosen,?_⟩
          rw [← List.append_assoc,← hpool]
          exact heq
        | false =>
          exact ⟨first,hfirst.trans (List.singleton_sublist.mpr List.mem_cons_self),hpool⟩

theorem nodesAfter_subset (groups : List Ptr) : (nodesAfter ginfo groups).Sublist groups :=
  (List.tail_sublist _).trans (List.dropWhile_sublist _)

theorem nodesAfter_cons (first : Ptr) (rest : List Ptr) :
    nodesAfter ginfo (first::rest)=if first=ginfo then rest else nodesAfter ginfo rest := by
  unfold nodesAfter
  rw [List.dropWhile_cons]
  by_cases h : first=ginfo <;> simp [h]

/-- Without duplicates the search behind an earlier node finds the group's only node. -/
theorem eraseAfter_eq {other : Ptr} {groups : List Ptr} (hn : groups.Nodup)
    (h : other∈nodesAfter ginfo groups) : eraseAfter ginfo other groups=groups.erase other := by
  induction groups with
  | nil => rfl
  | cons first rest ih =>
    obtain ⟨hfirst,hrest⟩ := List.nodup_cons.mp hn
    have hother : other∈rest := by
      rw [nodesAfter_cons] at h
      split at h
      · exact h
      · exact (nodesAfter_subset rest).subset h
    have hne : first≠other := fun heq => hfirst (heq ▸ hother)
    rw [List.erase_cons_tail (by simpa using hne)]
    unfold eraseAfter
    split
    · rfl
    · rename_i hg
      rw [nodesAfter_cons,if_neg hg] at h
      rw [ih hrest h]

theorem nodesAfter_erase {other : Ptr} {groups : List Ptr} (hn : groups.Nodup)
    (h : other∈nodesAfter ginfo groups) :
    nodesAfter ginfo (groups.erase other)=(nodesAfter ginfo groups).erase other := by
  induction groups with
  | nil => rfl
  | cons first rest ih =>
    obtain ⟨hfirst,hrest⟩ := List.nodup_cons.mp hn
    have hother : other∈rest := by
      rw [nodesAfter_cons] at h
      split at h
      · exact h
      · exact (nodesAfter_subset rest).subset h
    have hne : first≠other := fun heq => hfirst (heq ▸ hother)
    rw [List.erase_cons_tail (by simpa using hne),nodesAfter_cons,nodesAfter_cons]
    split
    · rfl
    · rename_i hg
      rw [nodesAfter_cons,if_neg hg] at h
      exact ih hrest h

theorem Team.other_ne (team : Team) : team.other≠team := by
  cases team <;> decide

/-- The selected groups go over to the other team; by induction on them, since each one
stays behind `ginfo` until its turn. -/
theorem Placed.changeTeam {team : Team} {groups : List Ptr} (hn : groups.Nodup)
    (h : Placed q place)
    (hafter : ∀ p∈groups,p∈nodesAfter ginfo (q.m_QueuedGroups (bracket_id,BG_QUEUE_NORMAL team))) :
    ∃ place',Placed (changeTeam bracket_id team ginfo groups q) place' := by
  induction groups generalizing q place with
  | nil => exact ⟨place,h⟩
  | cons p rest ih =>
    obtain ⟨hprest,hrest⟩ := List.nodup_cons.mp hn
    have hp := hafter p List.mem_cons_self
    have hplace := (mem_lists h.toRegistered).mp ((nodesAfter_subset _).subset hp)
    have hne : ((bracket_id,BG_QUEUE_NORMAL team) : Slot)≠(bracket_id,BG_QUEUE_NORMAL team.other) := by
      intro heq
      injection (Prod.mk.inj heq).2 with hteam
      exact team.other_ne hteam.symm
    have hnodup := h.toRegistered.nodup (bracket_id,BG_QUEUE_NORMAL team)
    unfold BattlegroundQueueModel.changeTeam
    extract_lets sided other own pushed
    have hown : pushed.m_QueuedGroups own=q.m_QueuedGroups own := Function.update_of_ne hne _ _
    have hmove : pushed.setList own (eraseAfter ginfo p (pushed.m_QueuedGroups own))=
        sided.move p own other := by
      rw [hown,eraseAfter_eq hnodup hp,← hown]
      rfl
    have hmoved : (sided.move p own other).m_QueuedGroups own=(q.m_QueuedGroups own).erase p := by
      rw [← hown]
      exact Function.update_self _ _ _
    rw [hmove]
    have hsided : Registered sided place :=
      h.toRegistered.frame (frame_modify (fun _ => rfl) fun _ hside => by cases hside)
    have hregistered : Registered (sided.move p own other) (Function.update place p (some other)) :=
      hsided.move other hplace
    have hplaced : Placed (sided.move p own other) (Function.update place p (some other)) := by
      refine ⟨hregistered,fun x side hside => ?_⟩
      have hinfo : (sided.move p own other).info x=sided.info x := rfl
      rw [hinfo,modify_info]
      simp only [sideAt,Function.update_apply] at hside
      by_cases hx : x=p
      · subst hx
        rw [if_pos rfl] at hside
        rw [h.toRegistered.info hplace,if_pos ⟨rfl,rfl⟩]
        exact Option.some.inj hside
      · rw [if_neg hx] at hside
        rw [if_neg fun hc => hx hc.1]
        exact h.side x side hside
    refine ih hrest hplaced fun x hx => ?_
    have hxp : x≠p := fun heq => hprest (heq ▸ hx)
    rw [hmoved,nodesAfter_erase hnodup hp,List.mem_erase_of_ne hxp]
    exact hafter x (List.mem_cons_of_mem p hx)

theorem Kept.CheckSkirmishForSameFaction (h : Kept q) (world : World) (minPlayersPerTeam : ℕ) :
    Kept (CheckSkirmishForSameFaction world bracket_id minPlayersPerTeam q).1 := by
  unfold BattlegroundQueueModel.CheckSkirmishForSameFaction
  extract_lets count teamIndex cleared ginfo own pools selected
  split
  · exact h
  split
  · split
    · obtain ⟨place,hplace⟩ := h.pools pools
      obtain ⟨chosen,hchosen,heq⟩ := addWaiting_sublist (q := q) teamIndex.other minPlayersPerTeam
        (nodesAfter ginfo own) cleared
      have hgroups : (pools teamIndex.other).SelectedGroups=chosen := by
        refine heq.trans ?_
        simp only [cleared,Function.update_self,SelectionPool.Init,List.nil_append]
      rw [hgroups]
      refine Placed.changeTeam (hchosen.nodup ?_) hplace fun p hp => hchosen.subset hp
      exact (hplace.toRegistered.nodup _).sublist (nodesAfter_subset own)
    · exact h.pools pools
  · exact h.pools cleared

theorem frame_increaseRange (world : World) : Frame place q (increaseRange world q ginfo) := by
  unfold increaseRange
  split
  · exact frame_modify (fun _ => rfl) fun _ _ => rfl
  · exact Frame.refl place q

theorem frame_setOpponents (aTeam hTeam : Ptr) : Frame place q (setOpponents q aTeam hTeam) := by
  unfold setOpponents
  refine Frame.trans ?_ (frame_modify (fun _ => rfl) fun _ _ => rfl)
  exact frame_modify (fun _ => rfl) fun _ _ => rfl

/-- A group in a premade list goes to the premade list of the team, if it is not there. -/
theorem Registered.toTeam (h : Registered q place) {own : Team} (team : Team)
    (hplace : place ginfo=some (bracket_id,BG_QUEUE_PREMADE own)) (hown : (q.info ginfo).Team=own) :
    Registered
      (if (q.info ginfo).Team=team then q
        else q.move ginfo (bracket_id,BG_QUEUE_PREMADE team.other) (bracket_id,BG_QUEUE_PREMADE team))
      (Function.update place ginfo (some (bracket_id,BG_QUEUE_PREMADE team))) := by
  rw [hown]
  split
  · rename_i heq
    rw [← heq,← hplace,Function.update_eq_self]
    exact h
  · rename_i hne
    refine h.move _ ?_
    have : own=team.other := by
      revert hne
      cases own <;> cases team <;> decide
    rw [hplace,this]

theorem changeLists_heap (aTeam hTeam : Ptr) :
    (changeLists bracket_id aTeam hTeam q).heap=q.heap := by
  unfold changeLists
  extract_lets ali horde moved
  have hmoved : moved.heap=q.heap := by
    unfold moved
    split <;> rfl
  split
  · exact hmoved
  · exact hmoved

theorem invite_team (world : World) (bg : Battleground) (side : Team) (p : Ptr) :
    ((InviteGroupToBG world q ginfo bg side).info p).Team=
      if p=ginfo ∧ (q.heap p).isSome then side else (q.info p).Team := by
  have hsided : ∀ p,((q.modify ginfo fun g => { g with Team := side }).info p).Team=
      if p=ginfo ∧ (q.heap p).isSome then side else (q.info p).Team := by
    intro p
    rw [modify_info]
    split <;> rfl
  unfold InviteGroupToBG
  extract_lets sided accepttime
  split
  · exact hsided p
  rw [modify_info]
  split
  · exact hsided p
  · exact hsided p

theorem Placed.startArena (h : Placed q place) {aTeam hTeam : Ptr} {aOwn hOwn : Team}
    (hne : aTeam≠hTeam) (ha : place aTeam=some (bracket_id,BG_QUEUE_PREMADE aOwn))
    (hh : place hTeam=some (bracket_id,BG_QUEUE_PREMADE hOwn)) (world : World)
    (arena : Battleground) :
    Kept
      (InviteGroupToBG world
        (InviteGroupToBG world (changeLists bracket_id aTeam hTeam (setOpponents q aTeam hTeam)) aTeam
          arena ALLIANCE) hTeam arena HORDE) := by
  have hset := h.frame (frame_setOpponents aTeam hTeam)
  have hside : ∀ {p own},place p=some (bracket_id,BG_QUEUE_PREMADE own) →
      ((setOpponents q aTeam hTeam).info p).Team=own := fun {p own} hp =>
    hset.side p own (by rw [sideAt,hp]; rfl)
  generalize setOpponents q aTeam hTeam=set at hset hside
  have hmoved := hset.toRegistered.toTeam ALLIANCE ha (hside ha)
  have hh' : Function.update place aTeam (some (bracket_id,BG_QUEUE_PREMADE ALLIANCE)) hTeam=
      some (bracket_id,BG_QUEUE_PREMADE hOwn) := by
    rw [Function.update_of_ne hne.symm]
    exact hh
  have hinfo : ∀ p,(if (set.info aTeam).Team=ALLIANCE then set
      else set.move aTeam (bracket_id,BG_QUEUE_PREMADE ALLIANCE.other)
        (bracket_id,BG_QUEUE_PREMADE ALLIANCE)).info p=set.info p := by
    intro p
    split <;> rfl
  have hlists := hmoved.toTeam HORDE hh' (by rw [hinfo]; exact hside hh)
  have hm : Registered (changeLists bracket_id aTeam hTeam set) _ := hlists
  have hi := hm.frame (@frame_invite _ _ aTeam world arena ALLIANCE (by
    intro team hside
    cases hside))
  have hj := hi.frame (@frame_invite _ _ hTeam world arena HORDE (by
    intro team hside
    cases hside))
  refine ⟨_,hj,fun p team hp => ?_⟩
  rw [invite_team,hi.live,invite_team,hm.live]
  by_cases hph : p=hTeam
  · subst hph
    simp only [sideAt,Function.update_self] at hp
    simp only [Function.update_self]
    exact Option.some.inj hp
  · rw [if_neg fun hc => hph hc.1]
    simp only [sideAt,Function.update_of_ne hph] at hp
    by_cases hpa : p=aTeam
    · subst hpa
      rw [Function.update_self] at hp
      simp only [Function.update_of_ne hph,Function.update_self]
      exact Option.some.inj hp
    · rw [if_neg fun hc => hpa hc.1]
      rw [Function.update_of_ne hpa] at hp
      have hsame : (changeLists bracket_id aTeam hTeam set).info p=set.info p := by
        rw [BattlegroundQueue.info,changeLists_heap,BattlegroundQueue.info]
      rw [hsame]
      exact hset.side p team hp

theorem Kept.pairArena (world : World) (team : Team) (citr : List Ptr) (h : Kept q)
    (hcitr : ∀ p∈citr,p∈q.m_QueuedGroups (bracket_id,BG_QUEUE_PREMADE team)) :
    Kept (pairArena world bracket_id team citr q).1 := by
  fun_induction BattlegroundQueueModel.pairArena with
  | case1 q => exact h
  | case2 front1 citr q hinvited ih =>
    exact ih h fun p hp => hcitr p (List.mem_cons_of_mem _ hp)
  | case3 front1 citr q₀ hinvited q opponent hnone ih =>
    have hf : ∀ place,Frame place q₀ q := fun place => frame_increaseRange world
    refine ih (h.frame fun place _ => hf place) fun p hp => ?_
    rw [(hf fun _ => none).lists]
    exact hcitr p (List.mem_cons_of_mem _ hp)
  | case4 front1 citr q₀ hinvited q opponent hTeam hfound hnone =>
    exact h.frame fun place _ => frame_increaseRange world
  | case5 front1 citr q₀ hinvited q opponent hTeam hfound arena harena moved started next ih =>
    have hf : ∀ place,Frame place q₀ q := fun place => frame_increaseRange world
    have hfront := hcitr front1 List.mem_cons_self
    rw [← (hf fun _ => none).lists] at hfront
    obtain ⟨place,hplace⟩ := h.frame fun place _ => hf place
    obtain ⟨own,hown⟩ : ∃ own,opponent own=some hTeam := by
      rcases Option.or_eq_some_iff.mp hfound with hali | ⟨-,hhorde⟩
      · exact ⟨ALLIANCE,hali⟩
      · exact ⟨HORDE,hhorde⟩
    have hopponent := List.find?_some hown
    have hne : front1≠hTeam := by
      rintro rfl
      simp [arenaOpponent] at hopponent
    refine ih ?_ fun p hp => of_decide_eq_true (List.mem_filter.mp hp).2
    exact hplace.startArena hne ((mem_lists hplace.toRegistered).mp hfront)
      ((mem_lists hplace.toRegistered).mp (List.mem_of_find?_eq_some hown)) world arena

theorem frame_pairRbg (world : World) (bg_template : Battleground) (citr : List Ptr)
    (h : Placed q place) (hcitr : ∀ p∈citr,place p=some (bracket_id,BG_QUEUE_RBG)) :
    Frame place q (pairRbg world bracket_id bg_template citr q) := by
  fun_induction pairRbg with
  | case1 q => exact Frame.refl place q
  | case2 front1 citr q hinvited ih =>
    exact ih h fun p hp => hcitr p (List.mem_cons_of_mem _ hp)
  | case3 front1 citr q₀ hinvited q hnone ih =>
    have hf : Frame place q₀ q := frame_increaseRange world
    exact hf.trans (ih (h.frame hf) fun p hp => hcitr p (List.mem_cons_of_mem _ hp))
  | case4 front1 citr q₀ hinvited q hTeam hfound hnone => exact frame_increaseRange world
  | case5 front1 citr q₀ hinvited q hTeam hfound arena harena rated teamA ih =>
    have hf : Frame place q₀ q := frame_increaseRange world
    have hset : Frame place q rated := frame_setOpponents front1 hTeam
    have hfound' : place hTeam=some (bracket_id,BG_QUEUE_RBG) :=
      (mem_lists (h.frame hf).toRegistered).mp (List.mem_of_find?_eq_some hfound)
    have hinvite : ∀ {p} (side) (r : BattlegroundQueue),place p=some (bracket_id,BG_QUEUE_RBG) →
        Frame place r (InviteGroupToBG world r p arena side) := fun {p} side r hp =>
      frame_invite world arena fun team hside => by
        rw [sideAt,hp] at hside
        cases hside
    have hstarted := hf.trans (hset.trans
      ((hinvite teamA rated (hcitr front1 List.mem_cons_self)).trans
        (hinvite teamA.other _ hfound')))
    exact hstarted.trans
      (ih (h.frame hstarted) fun p hp => hcitr p (List.mem_cons_of_mem _ hp))

theorem Kept.checkMatch (h : Kept q) (world : World) (bg_template : Battleground)
    (MinPlayersPerTeam MaxPlayersPerTeam : ℕ) :
    Kept (checkMatch world bracket_id bg_template MinPlayersPerTeam MaxPlayersPerTeam q) := by
  unfold BattlegroundQueueModel.checkMatch
  extract_lets normal skirmish cross
  have hnormal : Kept normal.1 := h.CheckNormalMatch world MinPlayersPerTeam MaxPlayersPerTeam
  have hskirmish : Kept skirmish.1 := by
    unfold skirmish
    split
    · exact hnormal.CheckSkirmishForSameFaction world MinPlayersPerTeam
    · exact hnormal
  have hcross : Kept cross.1 := by
    unfold cross
    split
    · exact hskirmish
    unfold CheckCrossFactionMatch
    split
    · exact hskirmish
    · exact hskirmish.frame fun place hplace => frame_FillXPlayersToBG hplace world _ _ _ _
  split
  · split
    · exact hcross
    · exact hcross.invitePools world _
  · exact hcross

theorem Kept.updateMatches (h : Kept q) (world : World) (args : UpdateArgs)
    (bg_template : Battleground) (MinPlayersPerTeam MaxPlayersPerTeam : ℕ) :
    Kept (updateMatches world args bg_template MinPlayersPerTeam MaxPlayersPerTeam q) := by
  unfold BattlegroundQueueModel.updateMatches
  extract_lets cleared premade ali
  have hcleared : Kept cleared := h.pools _
  have hpremade : Kept premade.1 := by
    unfold premade
    split
    · exact hcleared
    · exact hcleared.checkPremade world MinPlayersPerTeam MaxPlayersPerTeam
  have hali : Kept ali.1 := hcleared.pairArena world ALLIANCE _ fun _ hp => hp
  split
  · split
    · exact hpremade.checkMatch world bg_template MinPlayersPerTeam MaxPlayersPerTeam
    · exact hpremade
  · split
    · split
      · split
        · exact hali.pairArena world HORDE _ fun _ hp => hp
        · exact hali
      · exact hcleared
    · split
      · exact hcleared.frame fun place hplace =>
          frame_pairRbg world bg_template _ hplace fun p hp =>
            (mem_lists hplace.toRegistered).mp hp
      · exact hcleared

/-- `BattlegroundQueueUpdate` keeps the invariant. -/
theorem Kept.update (h : Kept q) (world : World) (args : UpdateArgs) :
    Kept (BattlegroundQueueUpdate world args q) := by
  unfold BattlegroundQueueUpdate
  split
  · unfold BattlegroundWarGameQueueUpdate
    split
    · exact h
    · obtain ⟨place,hplace⟩ := h
      exact ⟨place,hplace.warGames _ _⟩
  · extract_lets waiting filled
    have hfilled : Kept filled := h.fillFreeSlots world args.bgTypeId world.bgQueues
    split
    · split
      · exact hfilled
      split
      · split
        · exact hfilled
        · exact hfilled.updateMatches world args _ _ _
      · exact hfilled
    · exact h

end

/-- The calls of the queue. -/
inductive Operation
  | AddGroup (ginfo : Ptr) (join : Join)
  | RemovePlayer (guid : Guid)
  | BattlegroundQueueUpdate (world : World) (args : UpdateArgs)
  | AddWarGameGroup (wginfo : WarGameGroupQueueInfo)

/-- A call on the queue. -/
def perform (q : BattlegroundQueue) : Operation → BattlegroundQueue
  | Operation.AddGroup ginfo join => AddGroup q ginfo join
  | Operation.RemovePlayer guid => RemovePlayer q guid
  | Operation.BattlegroundQueueUpdate world args => BattlegroundQueueUpdate world args q
  | Operation.AddWarGameGroup wginfo =>
    { q with m_QueuedWargameGroups := q.m_QueuedWargameGroups++[wginfo] }

/-- `new` returns memory that is free, the leader is in the group, and no player of a new
group is queued. -/
def Legal (q : BattlegroundQueue) : Operation → Prop
  | Operation.AddGroup ginfo join =>
    q.heap ginfo=none ∧ join.leader∈join.players ∧ ∀ guid∈join.players,q.m_QueuedPlayers guid=none
  | _ => True

/-- The invariant of the representation. -/
structure Represented (q : BattlegroundQueue) : Prop where
  once : ∀ ginfo,(q.heap ginfo).isSome → ∃ slot,(q.m_QueuedGroups slot).count ginfo=1 ∧
    ∀ other,other≠slot → ginfo∉q.m_QueuedGroups other
  /-- The lists hold live groups only. -/
  live : ∀ slot,∀ ginfo∈q.m_QueuedGroups slot,(q.heap ginfo).isSome
  side : ∀ bracket team ginfo g,q.heap ginfo=some g →
    ginfo∈q.m_QueuedGroups (bracket,BG_QUEUE_PREMADE team) ∨
      ginfo∈q.m_QueuedGroups (bracket,BG_QUEUE_NORMAL team) → g.Team=team
  /-- A player maps to the group that is queued and contains him, and to no other one. -/
  players : ∀ guid ginfo,q.m_QueuedPlayers guid=some ginfo ↔
    (∃ slot,ginfo∈q.m_QueuedGroups slot) ∧ ∃ g,q.heap ginfo=some g ∧ guid∈g.Players
  nonempty : ∀ slot,∀ ginfo∈q.m_QueuedGroups slot,∀ g,q.heap ginfo=some g → g.Players.Nonempty

theorem Placed.represented {q : BattlegroundQueue} {place : Places} (h : Placed q place) :
    Represented q := by
  have hplace : ∀ {ginfo g},q.heap ginfo=some g → ∃ slot,place ginfo=some slot := by
    intro ginfo g hg
    have := h.live ginfo
    rw [hg] at this
    exact Option.isSome_iff_exists.mp this.symm
  refine ⟨?_,?_,?_,?_,fun _ ginfo _ => h.nonempty ginfo⟩
  · intro ginfo hlive
    rw [h.live] at hlive
    obtain ⟨slot,hslot⟩ := Option.isSome_iff_exists.mp hlive
    refine ⟨slot,by rw [h.count,if_pos hslot],fun other hother hmem => hother ?_⟩
    exact Option.some.inj (((mem_lists h.toRegistered).mp hmem).symm.trans hslot)
  · intro slot ginfo hmem
    rw [h.live,(mem_lists h.toRegistered).mp hmem]
    rfl
  · intro bracket team ginfo g hg hmem
    rw [← info_eq hg]
    refine h.side ginfo team ?_
    rcases hmem with hmem | hmem
    · rw [sideAt,(mem_lists h.toRegistered).mp hmem]
      rfl
    · rw [sideAt,(mem_lists h.toRegistered).mp hmem]
      rfl
  · intro guid ginfo
    rw [h.players]
    constructor
    · rintro ⟨g,hg,hguid⟩
      obtain ⟨slot,hslot⟩ := hplace hg
      exact ⟨⟨slot,(mem_lists h.toRegistered).mpr hslot⟩,g,hg,hguid⟩
    · exact And.right

theorem kept_empty : Kept BattlegroundQueue.empty :=
  ⟨fun _ => none,⟨⟨fun _ _ => rfl,fun _ => rfl,fun _ _ => by simp [BattlegroundQueue.empty],
    fun _ _ hg => by cases hg⟩,fun _ _ hp => by cases hp⟩⟩

/-- Every call keeps the invariant. -/
theorem Kept.perform {q : BattlegroundQueue} (h : Kept q) {op : Operation} (hop : Legal q op) :
    Kept (perform q op) := by
  obtain ⟨place,hplace⟩ := h
  cases op with
  | AddGroup ginfo join =>
    obtain ⟨hfree,hleader,hnew⟩ := hop
    exact ⟨_,hplace.addGroup hfree hleader hnew⟩
  | RemovePlayer guid => exact hplace.removePlayer _
  | BattlegroundQueueUpdate world args => exact Kept.update ⟨place,hplace⟩ world args
  | AddWarGameGroup wginfo => exact ⟨place,hplace.warGames _ _⟩

/-- After every run of calls, with any answers of the server, the representation is right. -/
theorem queue_representation {ops : List Operation}
    (hops : Meets perform Legal BattlegroundQueue.empty ops) :
    Represented (run perform BattlegroundQueue.empty ops) := by
  obtain ⟨place,hplace⟩ := run_invariant (I := Kept) (fun _ _ h hop => h.perform hop) kept_empty hops
  exact hplace.represented

/-- An alliance player alone joins a skirmish. -/
def skirmishJoin (guid : Guid) : Join where
  leader := guid
  GetTeam := ALLIANCE
  grp := none
  BgTypeId := 6
  bracketId := 15
  ArenaType := 2
  isRated := false
  isPremade := false
  ArenaRating := 0
  MatchmakerRating := 0
  arenateamid := 0
  getMSTime := 0
  crossfaction := false
  OTeamAlliance := true

/-- The arena template, and the instance it creates. -/
def skirmishArena (instanceId : UInt32) : Battleground where
  GetInstanceID := instanceId
  GetTypeID := 6
  GetBracketId := 15
  GetStatus := 1
  isArena := true
  isRated := false
  isRatedBattleground := false
  GetMinPlayersPerTeam := 2
  GetMaxPlayersPerTeam := 2
  GetFreeSlotsForTeam := fun _ => 0

/-- A server in arena testing mode, where one player is enough for a team. -/
def skirmishWorld : World where
  getMSTime := fun _ => 0
  crossfaction := false
  invitationType := 0
  premadeWait := 0
  isTesting := false
  isArenaTesting := true
  GetMaxRatingDifference := 0
  GetRatingDiscardTimer := 0
  FindPlayer := fun _ => true
  bgQueues := []
  bg_template := some (skirmishArena 0)
  bracketEntry := true
  bg_random_template := none
  premadeBattleground := none
  normalBattleground := some (skirmishArena 7)
  ratedBattleground := fun _ => none
  emptyBack := 0

/-- The second of two alliance players is moved to the horde's queue for a skirmish; then the
first one leaves. -/
def skirmishRun : List Operation :=
  [Operation.AddGroup 1 (skirmishJoin 10),Operation.AddGroup 2 (skirmishJoin 20),
    Operation.BattlegroundQueueUpdate skirmishWorld ⟨6,15,2,false,0⟩,Operation.RemovePlayer 10]

theorem queue_representation_skirmish :
    Represented (run perform BattlegroundQueue.empty skirmishRun) ∧
      (run perform BattlegroundQueue.empty skirmishRun).m_QueuedGroups
        (15,BG_QUEUE_NORMAL HORDE)=[2] ∧
      (run perform BattlegroundQueue.empty skirmishRun).m_QueuedGroups
        (15,BG_QUEUE_NORMAL ALLIANCE)=[] ∧
      (run perform BattlegroundQueue.empty skirmishRun).m_QueuedPlayers 20=some 2 := by
  refine ⟨queue_representation ⟨⟨rfl,by decide,by decide⟩,⟨rfl,by decide,by decide⟩,trivial,trivial,
    trivial⟩,by decide,by decide,by decide⟩

end Projectnelth.BattlegroundQueueModel
