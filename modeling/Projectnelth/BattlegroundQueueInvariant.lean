import Mathlib
import Projectnelth.BattlegroundQueuePass

/-!
# Where the groups of a battleground queue are

The list that each group is in is kept as a ghost: a live group is in its
list once and in no other one. Assignments to fields of groups keep it, a move
changes it at one group, and the team of a group follows the list it is in.
-/

namespace Projectnelth.BattlegroundQueueModel

open Team BattlegroundQueueGroupTypes BattlegroundQueue

/-- The team of the groups in a list. -/
def BattlegroundQueueGroupTypes.side : BattlegroundQueueGroupTypes → Option Team
  | BG_QUEUE_PREMADE team => some team
  | BG_QUEUE_NORMAL team => some team
  | BG_QUEUE_MIXED => none
  | BG_QUEUE_RBG => none

/-- The list of each group in the queue. -/
abbrev Places := Ptr → Option Slot

/-- The team that a group's list asks for. -/
def sideAt (place : Places) (ginfo : Ptr) : Option Team :=
  (place ginfo).bind fun slot => slot.2.side

/-- The groups are where `place` says, and `m_QueuedPlayers` is inverse to their `Players`. -/
structure Registered (q : BattlegroundQueue) (place : Places) : Prop where
  /-- A group is in its list, once. -/
  count : ∀ slot ginfo,
    (q.m_QueuedGroups slot).count ginfo=if place ginfo=some slot then 1 else 0
  /-- The live groups are those with a list. -/
  live : ∀ ginfo,(q.heap ginfo).isSome=(place ginfo).isSome
  /-- `m_QueuedPlayers` and the `Players` of the groups. -/
  players : ∀ guid ginfo,
    q.m_QueuedPlayers guid=some ginfo ↔ ∃ g,q.heap ginfo=some g ∧ guid∈g.Players
  /-- No group is empty. -/
  nonempty : ∀ ginfo g,q.heap ginfo=some g → g.Players.Nonempty

/-- Also, every group is in a list of its team. -/
structure Placed (q : BattlegroundQueue) (place : Places) : Prop extends Registered q place where
  /-- The group's team is that of its list. -/
  side : ∀ ginfo team,sideAt place ginfo=some team → (q.info ginfo).Team=team

/-- Only the fields of groups and the pools differ, and neither the players of a group
nor the team of one in a list of a team. -/
structure Frame (place : Places) (q q' : BattlegroundQueue) : Prop where
  lists : q'.m_QueuedGroups=q.m_QueuedGroups
  queued : q'.m_QueuedPlayers=q.m_QueuedPlayers
  players : ∀ ginfo,(q'.heap ginfo).map GroupQueueInfo.Players=
    (q.heap ginfo).map GroupQueueInfo.Players
  side : ∀ ginfo team,sideAt place ginfo=some team → (q'.info ginfo).Team=(q.info ginfo).Team

section

variable {q q' q'' : BattlegroundQueue} {place : Places} {ginfo : Ptr}

theorem Frame.refl (place : Places) (q : BattlegroundQueue) : Frame place q q :=
  ⟨rfl,rfl,fun _ => rfl,fun _ _ _ => rfl⟩

theorem Frame.trans (h : Frame place q q') (h' : Frame place q' q'') : Frame place q q'' :=
  ⟨h'.lists.trans h.lists,h'.queued.trans h.queued,
    fun p => (h'.players p).trans (h.players p),
    fun p team hp => (h'.side p team hp).trans (h.side p team hp)⟩

theorem Frame.pools (h : Frame place q q') (pools : Team → SelectionPool) :
    Frame place q { q' with m_SelectionPools := pools } :=
  ⟨h.lists,h.queued,h.players,h.side⟩

/-- With no list of a team nothing is asked of the teams. -/
theorem Frame.unsided (h : Frame place q q') : Frame (fun _ => none) q q' :=
  ⟨h.lists,h.queued,h.players,fun _ _ hp => by cases hp⟩

theorem mem_lists (h : Registered q place) {slot : Slot} :
    ginfo∈q.m_QueuedGroups slot ↔ place ginfo=some slot := by
  rw [← List.count_pos_iff,h.count]
  split
  · simp [*]
  · simp [*]

theorem Registered.nodup (h : Registered q place) (slot : Slot) :
    (q.m_QueuedGroups slot).Nodup := by
  refine List.nodup_iff_count_le_one.mpr fun p => ?_
  rw [h.count]
  split
  · exact le_rfl
  · exact Nat.zero_le 1

/-- A group in a list is live. -/
theorem Registered.info (h : Registered q place) {slot : Slot} (hp : place ginfo=some slot) :
    q.heap ginfo=some (q.info ginfo) := by
  have hlive := h.live ginfo
  rw [hp] at hlive
  obtain ⟨g,hg⟩ := Option.isSome_iff_exists.mp hlive
  rw [BattlegroundQueue.info,hg]
  rfl

theorem info_eq {g : GroupQueueInfo} (h : q.heap ginfo=some g) : q.info ginfo=g := by
  rw [BattlegroundQueue.info,h]
  rfl

theorem Registered.frame (h : Registered q place) (hf : Frame (fun _ => none) q q') :
    Registered q' place := by
  have hheap : ∀ p g',q'.heap p=some g' → ∃ g,q.heap p=some g ∧ g.Players=g'.Players := by
    intro p g' hg'
    have := hf.players p
    rw [hg',Option.map_some,eq_comm,Option.map_eq_some_iff] at this
    exact this
  have hheap' : ∀ p g,q.heap p=some g → ∃ g',q'.heap p=some g' ∧ g'.Players=g.Players := by
    intro p g hg
    have := hf.players p
    rw [hg,Option.map_some,Option.map_eq_some_iff] at this
    exact this
  refine ⟨?_,?_,?_,?_⟩
  · rw [hf.lists]
    exact h.count
  · intro p
    have := congrArg Option.isSome (hf.players p)
    rw [Option.isSome_map,Option.isSome_map] at this
    exact this.trans (h.live p)
  · intro guid p
    rw [hf.queued,h.players]
    constructor
    · rintro ⟨g,hg,hguid⟩
      obtain ⟨g',hg',heq⟩ := hheap' p g hg
      exact ⟨g',hg',heq ▸ hguid⟩
    · rintro ⟨g',hg',hguid⟩
      obtain ⟨g,hg,heq⟩ := hheap p g' hg'
      exact ⟨g,hg,heq ▸ hguid⟩
  · intro p g' hg'
    obtain ⟨g,hg,heq⟩ := hheap p g' hg'
    exact heq ▸ h.nonempty p g hg

theorem Placed.frame (h : Placed q place) (hf : Frame place q q') : Placed q' place :=
  ⟨h.toRegistered.frame hf.unsided,
    fun p team hp => (hf.side p team hp).trans (h.side p team hp)⟩

theorem modify_heap (q : BattlegroundQueue) (ginfo p : Ptr) (f : GroupQueueInfo → GroupQueueInfo) :
    (q.modify ginfo f).heap p=if p=ginfo then (q.heap p).map f else q.heap p := by
  unfold BattlegroundQueue.modify
  by_cases hp : p=ginfo
  · subst hp
    simp
  · simp [hp]

theorem modify_info (q : BattlegroundQueue) (ginfo p : Ptr) (f : GroupQueueInfo → GroupQueueInfo) :
    (q.modify ginfo f).info p=
      if p=ginfo ∧ (q.heap p).isSome then f (q.info p) else q.info p := by
  unfold BattlegroundQueue.info
  rw [modify_heap]
  cases q.heap p <;> by_cases hp : p=ginfo <;> simp [hp]

/-- Assignments that leave the players alone, and the team where a list asks for it. -/
theorem frame_modify {f : GroupQueueInfo → GroupQueueInfo} (hplayers : ∀ g,(f g).Players=g.Players)
    (hteam : ∀ team,sideAt place ginfo=some team → (f (q.info ginfo)).Team=(q.info ginfo).Team) :
    Frame place q (q.modify ginfo f) := by
  refine ⟨rfl,rfl,?_,?_⟩
  · intro p
    rw [modify_heap]
    split
    · rw [Option.map_map]
      exact congrArg (fun k => (q.heap p).map k) (funext hplayers)
    · rfl
  · intro p team hp
    rw [modify_info]
    split
    · rename_i hpg
      rw [hpg.1] at hp ⊢
      exact hteam team hp
    · rfl

theorem frame_invite (world : World) (bg : Battleground) {side : Team}
    (hside : ∀ team,sideAt place ginfo=some team → side=(q.info ginfo).Team) :
    Frame place q (InviteGroupToBG world q ginfo bg side) := by
  have hsided : Frame place q (q.modify ginfo fun g => { g with Team := side }) :=
    frame_modify (fun _ => rfl) hside
  simp only [InviteGroupToBG]
  split
  · exact hsided
  · exact hsided.trans (frame_modify (fun _ => rfl) fun _ _ => rfl)

theorem frame_inviteSelection (world : World) (bg : Battleground) (groups : List Ptr) :
    Frame place q (inviteSelection world bg groups q) := by
  induction groups generalizing q with
  | nil => exact Frame.refl place q
  | cons p rest ih => exact (frame_invite world bg fun _ _ => rfl).trans ih

theorem frame_invitePools (world : World) (bg : Battleground) :
    Frame place q (invitePools world bg q) :=
  (frame_inviteSelection world bg _).trans (frame_inviteSelection world bg _)

/-- A move of a group to another list. -/
theorem Registered.move (h : Registered q place) {old : Slot} (new : Slot)
    (hp : place ginfo=some old) :
    Registered (q.move ginfo old new) (Function.update place ginfo (some new)) := by
  refine ⟨?_,?_,h.players,h.nonempty⟩
  · intro slot p
    have hcount := h.count slot p
    have hnew := h.count new p
    have hold := h.count old p
    simp only [BattlegroundQueue.move,setList,Function.update_apply]
    by_cases hpg : p=ginfo
    · subst hpg
      simp only [hp,Option.some.injEq] at hcount hnew hold
      grind
    · grind
  · intro p
    rw [Function.update_apply]
    split
    · rename_i hpg
      rw [hpg]
      exact (h.live ginfo).trans (by rw [hp]; rfl)
    · exact h.live p

/-- A new group at the end of a list. -/
theorem Registered.addGroup (h : Registered q place) {join : Join} (hfree : q.heap ginfo=none)
    (hleader : join.leader∈join.players)
    (hnew : ∀ guid∈join.players,q.m_QueuedPlayers guid=none) :
    Registered (AddGroup q ginfo join)
      (Function.update place ginfo (some (join.bracketId,join.index))) := by
  have hplace : place ginfo=none := by
    have := h.live ginfo
    rw [hfree] at this
    exact Option.not_isSome_iff_eq_none.mp (by rw [← this]; exact Bool.false_ne_true)
  refine ⟨?_,?_,?_,?_⟩
  · intro slot p
    have hcount := h.count slot p
    simp only [AddGroup,Function.update_apply]
    by_cases hpg : p=ginfo
    · subst hpg
      simp only [hplace] at hcount
      grind
    · grind
  · intro p
    simp only [AddGroup,Function.update_apply]
    split
    · rfl
    · exact h.live p
  · intro guid p
    simp only [AddGroup,Function.update_apply]
    by_cases hguid : guid∈join.players
    · rw [if_pos hguid]
      constructor
      · intro hp
        obtain rfl := Option.some.inj hp
        exact ⟨join.ginfo,if_pos rfl,List.mem_toFinset.mpr hguid⟩
      · rintro ⟨g,hg,hmem⟩
        split at hg
        · rename_i hpg
          rw [hpg]
        · have := (h.players guid p).mpr ⟨g,hg,hmem⟩
          rw [hnew guid hguid] at this
          cases this
    · rw [if_neg hguid,h.players]
      constructor
      · rintro ⟨g,hg,hmem⟩
        have hpg : p≠ginfo := by
          rintro rfl
          rw [hfree] at hg
          cases hg
        exact ⟨g,by rw [if_neg hpg]; exact hg,hmem⟩
      · rintro ⟨g,hg,hmem⟩
        split at hg
        · obtain rfl := Option.some.inj hg
          exact absurd (List.mem_toFinset.mp hmem) hguid
        · exact ⟨g,hg,hmem⟩
  · intro p g hg
    simp only [AddGroup,Function.update_apply] at hg
    split at hg
    · obtain rfl := Option.some.inj hg
      exact ⟨join.leader,List.mem_toFinset.mpr hleader⟩
    · exact h.nonempty p g hg

theorem index_side (join : Join) {team : Team} (h : join.index.side=some team) :
    join.GetTeam=team := by
  unfold Join.index at h
  split at h
  · cases h
  split at h
  · cases h
  · split at h
    · exact Option.some.inj h
    · exact Option.some.inj h

/-- `AddGroup` puts the group into a list of its leader's team. -/
theorem Placed.addGroup (h : Placed q place) {join : Join} (hfree : q.heap ginfo=none)
    (hleader : join.leader∈join.players)
    (hnew : ∀ guid∈join.players,q.m_QueuedPlayers guid=none) :
    Placed (AddGroup q ginfo join)
      (Function.update place ginfo (some (join.bracketId,join.index))) := by
  refine ⟨h.toRegistered.addGroup hfree hleader hnew,fun p team hp => ?_⟩
  simp only [sideAt,Function.update_apply] at hp
  by_cases hpg : p=ginfo
  · rw [if_pos hpg] at hp
    rw [info_eq (g := join.ginfo) (by simp [AddGroup,hpg])]
    exact index_side join hp
  · rw [if_neg hpg] at hp
    have hsame : (AddGroup q ginfo join).info p=q.info p := by
      simp [AddGroup,BattlegroundQueue.info,hpg]
    rw [hsame]
    exact h.side p team hp

theorem findGroup_mem {slot : Slot} (h : findGroup q ginfo=some slot) :
    ginfo∈q.m_QueuedGroups slot := by
  obtain ⟨bracket,-,hfound⟩ := List.exists_of_findSome?_eq_some h
  obtain ⟨index,hlast,rfl⟩ := Option.map_eq_some_iff.mp hfound
  exact of_decide_eq_true (List.mem_filter.mp (List.mem_of_getLast? hlast)).2

/-- A player leaves a group that others stay in. -/
theorem Placed.forget (h : Placed q place) {guid : Guid} (hguid : q.m_QueuedPlayers guid=some ginfo)
    (hleft : ((q.info ginfo).Players.erase guid).Nonempty) :
    Placed
      { q.modify ginfo fun g => { g with Players := (q.info ginfo).Players.erase guid } with
        m_QueuedPlayers := Function.update q.m_QueuedPlayers guid none } place := by
  obtain ⟨g₀,hg₀,hmem₀⟩ := (h.players guid ginfo).mp hguid
  have hinfo := info_eq hg₀
  rw [hinfo] at hleft ⊢
  refine ⟨⟨h.count,?_,?_,?_⟩,?_⟩
  · intro p
    simp only [modify_heap]
    split
    · rw [Option.isSome_map]
      exact h.live p
    · exact h.live p
  · intro other p
    have hother := h.players other p
    simp only [modify_heap,Function.update_apply]
    by_cases hpg : p=ginfo
    · subst hpg
      rw [hg₀] at hother ⊢
      grind
    · grind
  · intro p g hg
    simp only [modify_heap] at hg
    split at hg
    · obtain ⟨g',-,rfl⟩ := Option.map_eq_some_iff.mp hg
      exact hleft
    · exact h.nonempty p g hg
  · intro p team hp
    have hteam : ((q.modify ginfo fun g => { g with Players := g₀.Players.erase guid }).info p).Team=
        (q.info p).Team := by
      rw [modify_info]
      split <;> rfl
    exact Eq.trans hteam (h.side p team hp)

/-- The last player leaves a group, which is then deleted. -/
theorem Placed.delete (h : Placed q place) {guid : Guid} {slot : Slot}
    (hguid : q.m_QueuedPlayers guid=some ginfo) (hslot : place ginfo=some slot)
    (hleft : ¬((q.info ginfo).Players.erase guid).Nonempty) :
    Placed
      { q with
        m_QueuedPlayers := Function.update q.m_QueuedPlayers guid none
        heap := Function.update q.heap ginfo none
        m_QueuedGroups :=
          Function.update q.m_QueuedGroups slot ((q.m_QueuedGroups slot).erase ginfo) }
      (Function.update place ginfo none) := by
  obtain ⟨g₀,hg₀,hmem₀⟩ := (h.players guid ginfo).mp hguid
  rw [info_eq hg₀,Finset.not_nonempty_iff_eq_empty,Finset.erase_eq_empty_iff] at hleft
  have honly : g₀.Players={guid} :=
    hleft.resolve_left (Finset.nonempty_iff_ne_empty.mp ⟨guid,hmem₀⟩)
  refine ⟨⟨?_,?_,?_,?_⟩,?_⟩
  · intro s p
    have hcount := h.count s p
    simp only [Function.update_apply]
    by_cases hpg : p=ginfo
    · subst hpg
      rw [hslot] at hcount
      grind
    · grind
  · intro p
    simp only [Function.update_apply]
    split
    · rfl
    · exact h.live p
  · intro other p
    have hother := h.players other p
    simp only [Function.update_apply]
    by_cases hpg : p=ginfo
    · subst hpg
      rw [hg₀] at hother
      grind
    · grind
  · intro p g hg
    simp only [Function.update_apply] at hg
    split at hg
    · cases hg
    · exact h.nonempty p g hg
  · intro p team hp
    simp only [sideAt,Function.update_apply] at hp
    by_cases hpg : p=ginfo
    · rw [if_pos hpg] at hp
      cases hp
    · rw [if_neg hpg] at hp
      simp only [BattlegroundQueue.info,Function.update_of_ne hpg]
      exact h.side p team hp

theorem Placed.warGames (h : Placed q place) (queued invited : List WarGameGroupQueueInfo) :
    Placed
      { q with m_QueuedWargameGroups := queued,m_InvitedWargameGroups := invited } place :=
  ⟨⟨h.count,h.live,h.players,h.nonempty⟩,h.side⟩

/-- `RemovePlayer`, with any fuel; by induction on the fuel, since each player leaves as
the first one does. -/
theorem Placed.removePlayer (fuel : ℕ) {guid : Guid} (h : Placed q place) :
    ∃ place',Placed (removePlayer fuel guid q) place' := by
  induction fuel generalizing q guid with
  | zero => exact ⟨place,h⟩
  | succ fuel ih =>
    unfold BattlegroundQueueModel.removePlayer
    split
    · exact ⟨place,h.warGames _ _⟩
    split
    · exact ⟨place,h⟩
    rename_i group hgroup
    split
    · exact ⟨place,h⟩
    rename_i slot hslot
    have hplace := (mem_lists h.toRegistered).mp (findGroup_mem hslot)
    dsimp only
    split
    · rename_i hleft
      have hforget := h.forget hgroup hleft
      split
      · exact ih hforget
      · exact ⟨place,hforget⟩
    · rename_i hleft
      exact ⟨_,h.delete hgroup hplace hleft⟩

/-- The fuel of `RemovePlayer` is enough: more of it changes nothing. -/
theorem Placed.removePlayer_fuel (h : Placed q place) {guid : Guid} {n m : ℕ}
    (hn : (q.m_QueuedPlayers guid).elim 0 q.size < n) (hm : (q.m_QueuedPlayers guid).elim 0 q.size < m) :
    BattlegroundQueueModel.removePlayer n guid q=BattlegroundQueueModel.removePlayer m guid q := by
  induction n generalizing q guid m with
  | zero => exact absurd hn (Nat.not_lt_zero _)
  | succ n ih =>
    obtain _ | m := m
    · exact absurd hm (Nat.not_lt_zero _)
    unfold BattlegroundQueueModel.removePlayer
    split
    · rfl
    split
    · rfl
    rename_i group hgroup
    rw [hgroup] at hn hm
    split
    · rfl
    dsimp only
    split
    · rename_i hleft
      split
      · have hforget := h.forget hgroup hleft
        obtain ⟨g,hg,hguid⟩ := (h.players guid group).mp hgroup
        have hsize : q.size group=((q.info group).Players.erase guid).card+1 := by
          rw [BattlegroundQueue.size,info_eq hg,Finset.card_erase_add_one hguid]
        -- the next player is in the same group, which has one player less
        have hnext := (hforget.players (((q.info group).Players.erase guid).min' hleft) group).mpr
          ⟨{ g with Players := (q.info group).Players.erase guid },
            by simp [modify_heap,hg],Finset.min'_mem _ _⟩
        have hcard : ∀ k,q.size group < k+1 →
            ((q.modify group fun g =>
              { g with Players := (q.info group).Players.erase guid }).info group).Players.card < k := by
          intro k hk
          rw [modify_info,if_pos ⟨rfl,by rw [hg]; rfl⟩]
          rw [hsize] at hk
          exact Nat.lt_of_succ_lt_succ hk
        refine ih hforget ?_ ?_
        · rw [hnext]
          exact hcard n hn
        · rw [hnext]
          exact hcard m hm
      · rfl
    · rfl

end

end Projectnelth.BattlegroundQueueModel
