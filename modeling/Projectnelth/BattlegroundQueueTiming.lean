import Mathlib
import Projectnelth.BattlegroundQueueRepresentation

/-!
# The time thresholds of the battleground queue

A premade group goes to the normal queue after a wait, and a rated arena
team is matched without regard to ratings after another one. Both places
subtract the wait from the clock and compare the join time with the
difference, so a clock that has not reached the wait yet wraps around and every
group that has joined looks old. The thresholds are right from the time on that the
wait has passed since the start of the clock.
-/

namespace Projectnelth.BattlegroundQueueModel

open Team BattlegroundQueueGroupTypes BattlegroundQueue

/-- The clock has passed the wait, or the group joined before the clock wrapped around.
There `getMSTimeDiff` is one too small, which the second inequality leaves out. -/
def Timely (wait JoinTime now : UInt32) : Prop :=
  wait ≤ now ∨ now < JoinTime ∧ getMSTimeDiff JoinTime now≠wait

/-- The group has waited longer. -/
def Waited (wait JoinTime now : UInt32) : Prop := wait < getMSTimeDiff JoinTime now

instance (wait JoinTime now : UInt32) : Decidable (Waited wait JoinTime now) :=
  inferInstanceAs (Decidable (_ < _))

/-- `getMSTimeDiff` as a number. -/
theorem toNat_getMSTimeDiff (JoinTime now : UInt32) :
    (getMSTimeDiff JoinTime now).toNat=
      if now.toNat < JoinTime.toNat then 4294967295-JoinTime.toNat+now.toNat
      else now.toNat-JoinTime.toNat := by
  have hj := JoinTime.toNat_lt
  have hn := now.toNat_lt
  have hmax : (0xFFFFFFFF : UInt32).toNat=4294967295 := rfl
  unfold getMSTimeDiff
  by_cases h : now < JoinTime
  · have hlt := UInt32.lt_iff_toNat_lt.mp h
    rw [if_pos h,if_pos hlt,UInt32.toNat_add,UInt32.toNat_sub,hmax]
    omega
  · have hle : ¬now.toNat < JoinTime.toNat := fun hlt => h (UInt32.lt_iff_toNat_lt.mpr hlt)
    rw [if_neg h,if_neg hle,UInt32.toNat_sub]
    omega

/-- Where the comparison with the shifted clock respects the wait. -/
theorem expired_iff_timely (wait JoinTime now : UInt32) :
    (JoinTime < now-wait → Waited wait JoinTime now) ↔ Timely wait JoinTime now := by
  have hj := JoinTime.toNat_lt
  have hn := now.toNat_lt
  have hw := wait.toNat_lt
  unfold Timely Waited
  rw [UInt32.lt_iff_toNat_lt,UInt32.lt_iff_toNat_lt,UInt32.le_iff_toNat_le,UInt32.lt_iff_toNat_lt,
    Ne,← UInt32.toNat_inj,toNat_getMSTimeDiff,UInt32.toNat_sub]
  split
  · omega
  · omega

section Premade

variable {world : World} {bracket_id : BattlegroundBracketId}
variable {MinPlayersPerTeam MaxPlayersPerTeam : ℕ} {team : Team} {q : BattlegroundQueue}
variable {ginfo : Ptr}

/-- The team's first premade group is uninvited, its time is over or its size is too small. -/
def Moves (world : World) (bracket_id : BattlegroundBracketId) (MinPlayersPerTeam : ℕ)
    (team : Team) (q : BattlegroundQueue) (ginfo : Ptr) : Prop :=
  (q.m_QueuedGroups (bracket_id,BG_QUEUE_PREMADE team)).head?=some ginfo ∧ q.invited ginfo=false ∧
    ((q.info ginfo).JoinTime < world.getMSTime ClockReading.premade-world.premadeWait ∨
      q.size ginfo < MinPlayersPerTeam)

/-- Both teams have an uninvited premade group. -/
def PremadeMatch (bracket_id : BattlegroundBracketId) (q : BattlegroundQueue) : Prop :=
  ∀ team,∃ ginfo∈q.m_QueuedGroups (bracket_id,BG_QUEUE_PREMADE team),q.invited ginfo=false

/-- The pass puts the group into the team's normal list. -/
def MovedToNormal (bracket_id : BattlegroundBracketId) (team : Team) (q q' : BattlegroundQueue)
    (ginfo : Ptr) : Prop :=
  (q.m_QueuedGroups (bracket_id,BG_QUEUE_NORMAL team)).count ginfo<
    (q'.m_QueuedGroups (bracket_id,BG_QUEUE_NORMAL team)).count ginfo

@[simp]
theorem premadeToNormal_heap (world : World) (bracket_id : BattlegroundBracketId)
    (MinPlayersPerTeam : ℕ) (team : Team) (q : BattlegroundQueue) :
    (premadeToNormal world bracket_id MinPlayersPerTeam team q).heap=q.heap := by
  unfold premadeToNormal
  split
  · rfl
  · split
    · rfl
    · rfl

theorem premadeToNormal_other (slot : Slot) (hp : slot≠(bracket_id,BG_QUEUE_PREMADE team))
    (hn : slot≠(bracket_id,BG_QUEUE_NORMAL team)) :
    (premadeToNormal world bracket_id MinPlayersPerTeam team q).m_QueuedGroups slot=
      q.m_QueuedGroups slot := by
  unfold premadeToNormal
  split
  · rfl
  split
  · dsimp only [BattlegroundQueue.move,BattlegroundQueue.setList]
    rw [Function.update_of_ne hp,Function.update_of_ne hn]
  · rfl

/-- One team's end of `CheckPremadeMatch` moves the group that `Moves` names and no other. -/
theorem movedToNormal_premadeToNormal :
    MovedToNormal bracket_id team q
        (premadeToNormal world bracket_id MinPlayersPerTeam team q) ginfo ↔
      Moves world bracket_id MinPlayersPerTeam team q ginfo := by
  have hne : (bracket_id,BG_QUEUE_NORMAL team)≠(bracket_id,BG_QUEUE_PREMADE team) := by
    intro h
    cases h
  unfold MovedToNormal Moves premadeToNormal
  split
  · rename_i hnil
    simp [hnil]
  rename_i front rest hcons
  rw [hcons,List.head?_cons,Option.some_inj]
  split
  · rename_i hmoves
    dsimp only [BattlegroundQueue.move,BattlegroundQueue.setList]
    rw [Function.update_of_ne hne,Function.update_self,List.count_cons]
    simp only [Bool.and_eq_true,Bool.not_eq_true',Bool.or_eq_true,decide_eq_true_eq] at hmoves
    by_cases hfront : front=ginfo
    · subst hfront
      simp [hmoves]
    · simp [hfront]
  · rename_i hmoves
    simp only [Bool.and_eq_true,Bool.not_eq_true',Bool.or_eq_true,decide_eq_true_eq] at hmoves
    refine ⟨fun h => absurd h (lt_irrefl _),fun h => ?_⟩
    obtain ⟨rfl,hwhy⟩ := h
    exact absurd hwhy hmoves

/-- The first uninvited premade group of a team exists where `find?` finds one. -/
theorem premadeMatch_iff :
    PremadeMatch bracket_id q ↔
      ∃ ali horde,
        (q.m_QueuedGroups (bracket_id,BG_QUEUE_PREMADE ALLIANCE)).find?
            (fun ginfo => !q.invited ginfo)=some ali ∧
          (q.m_QueuedGroups (bracket_id,BG_QUEUE_PREMADE HORDE)).find?
            (fun ginfo => !q.invited ginfo)=some horde := by
  have hsome : ∀ team,
      (∃ ginfo∈q.m_QueuedGroups (bracket_id,BG_QUEUE_PREMADE team),q.invited ginfo=false) ↔
        ∃ ginfo,(q.m_QueuedGroups (bracket_id,BG_QUEUE_PREMADE team)).find?
          (fun ginfo => !q.invited ginfo)=some ginfo := by
    intro team
    rw [← Option.isSome_iff_exists,List.find?_isSome]
    simp
  unfold PremadeMatch
  constructor
  · intro h
    obtain ⟨ali,hali⟩ := (hsome ALLIANCE).mp (h ALLIANCE)
    obtain ⟨horde,hhorde⟩ := (hsome HORDE).mp (h HORDE)
    exact ⟨ali,horde,hali,hhorde⟩
  · rintro ⟨ali,horde,hali,hhorde⟩ team
    cases team with
    | HORDE => exact (hsome HORDE).mpr ⟨horde,hhorde⟩
    | ALLIANCE => exact (hsome ALLIANCE).mpr ⟨ali,hali⟩

/-- `CheckPremadeMatch` moves a group only where there is no premade match, and of each
team the one that `Moves` names. -/
theorem movedToNormal_CheckPremadeMatch :
    MovedToNormal bracket_id team q
        (CheckPremadeMatch world bracket_id MinPlayersPerTeam MaxPlayersPerTeam q).1 ginfo ↔
      ¬PremadeMatch bracket_id q ∧ Moves world bracket_id MinPlayersPerTeam team q ginfo := by
  rw [premadeMatch_iff]
  unfold CheckPremadeMatch
  dsimp only
  split
  · rename_i ali horde hali hhorde
    refine ⟨fun h => absurd h (lt_irrefl _),fun h => absurd ⟨ali,horde,hali,hhorde⟩ h.1⟩
  rename_i hnone
  rw [and_iff_right (fun ⟨ali,horde,hali,hhorde⟩ => hnone ali horde hali hhorde)]
  set first := premadeToNormal world bracket_id MinPlayersPerTeam ALLIANCE q with hfirst
  have hheap : first.heap=q.heap := premadeToNormal_heap _ _ _ _ _
  cases team with
  | ALLIANCE =>
    rw [← movedToNormal_premadeToNormal,← hfirst]
    unfold MovedToNormal
    rw [premadeToNormal_other _ (by simp) (by simp)]
  | HORDE =>
    have hlist : ∀ index,index=BG_QUEUE_PREMADE HORDE ∨ index=BG_QUEUE_NORMAL HORDE →
        first.m_QueuedGroups (bracket_id,index)=q.m_QueuedGroups (bracket_id,index) := by
      rintro index (rfl | rfl)
      · exact premadeToNormal_other _ (by simp) (by simp)
      · exact premadeToNormal_other _ (by simp) (by simp)
    have hmoved :=
      @movedToNormal_premadeToNormal world bracket_id MinPlayersPerTeam HORDE first ginfo
    unfold MovedToNormal Moves BattlegroundQueue.invited BattlegroundQueue.size
      BattlegroundQueue.info at hmoved ⊢
    rw [hheap,hlist _ (Or.inl rfl),hlist _ (Or.inr rfl)] at hmoved
    exact hmoved

end Premade

/-- A pair that the loop over the rated arena teams makes, with the queue as it is then. -/
structure ArenaMatch where
  q : BattlegroundQueue
  aTeam : Ptr
  hTeam : Ptr

/-- `pairArena` with the pairs that it makes. -/
def pairArenaLog (world : World) (bracket_id : BattlegroundBracketId) (queueGroupType : Team) :
    List Ptr → BattlegroundQueue → (BattlegroundQueue×Bool)×List ArenaMatch
  | [],q => ((q,true),[])
  | front1::citr,q =>
    if q.invited front1 then pairArenaLog world bracket_id queueGroupType citr q
    else
      let q := increaseRange world q front1
      let opponent : Team → Option Ptr := fun team =>
        (q.m_QueuedGroups (bracket_id,BG_QUEUE_PREMADE team)).find? (arenaOpponent world q front1)
      match (opponent ALLIANCE).or (opponent HORDE) with
      | none => pairArenaLog world bracket_id queueGroupType citr q
      | some hTeam =>
        match world.ratedBattleground front1 with
        | none => ((q,false),[])
        | some arena =>
          let moved := changeLists bracket_id front1 hTeam (setOpponents q front1 hTeam)
          let started :=
            InviteGroupToBG world (InviteGroupToBG world moved front1 arena ALLIANCE) hTeam arena
              HORDE
          let next := if citr.head?=some hTeam then citr.tail else citr
          let rest :=
            pairArenaLog world bracket_id queueGroupType
              (next.filter fun ginfo =>
                ginfo∈started.m_QueuedGroups (bracket_id,BG_QUEUE_PREMADE queueGroupType)) started
          (rest.1,⟨q,front1,hTeam⟩::rest.2)
termination_by citr => citr.length
decreasing_by
  all_goals simp only [List.length_cons]
  · omega
  · omega
  refine Nat.lt_succ_of_le ((List.length_filter_le _ _).trans ?_)
  split
  · rw [List.length_tail]; omega
  · exact le_rfl

section Arena

variable {world : World} {bracket_id : BattlegroundBracketId} {queueGroupType : Team}

/-- Keeping the log changes nothing. -/
theorem pairArenaLog_fst (citr : List Ptr) (q : BattlegroundQueue) :
    (pairArenaLog world bracket_id queueGroupType citr q).1=
      pairArena world bracket_id queueGroupType citr q := by
  fun_induction pairArena world bracket_id queueGroupType citr q with
  | case1 q => rw [pairArenaLog]
  | case2 q front1 citr hinvited ih => rw [pairArenaLog,if_pos hinvited,ih]
  | case3 q front1 citr hinvited ranged opponent hnone ih =>
    rw [pairArenaLog,if_neg hinvited]
    dsimp only
    rw [show Option.or _ _=none from hnone]
    exact ih
  | case4 q front1 citr hinvited ranged opponent hTeam hsome harena =>
    rw [pairArenaLog,if_neg hinvited]
    dsimp only
    rw [show Option.or _ _=some hTeam from hsome]
    dsimp only
    rw [harena]
  | case5 q front1 citr hinvited ranged opponent hTeam hsome arena harena moved started next ih =>
    rw [pairArenaLog,if_neg hinvited]
    dsimp only
    rw [show Option.or _ _=some hTeam from hsome]
    dsimp only
    rw [harena]
    exact ih

/-- The opponent of every pair meets the condition of the search. -/
theorem arenaOpponent_of_mem_log (citr : List Ptr) (q : BattlegroundQueue) :
    ∀ pair∈(pairArenaLog world bracket_id queueGroupType citr q).2,
      arenaOpponent world pair.q pair.aTeam pair.hTeam=true := by
  fun_induction pairArenaLog world bracket_id queueGroupType citr q with
  | case1 q => exact fun _ hpair => absurd hpair List.not_mem_nil
  | case2 q front1 citr hinvited ih => exact ih
  | case3 q front1 citr hinvited ranged opponent hnone ih => exact ih
  | case4 q front1 citr hinvited ranged opponent hTeam hsome harena =>
    exact fun _ hpair => absurd hpair List.not_mem_nil
  | case5 q front1 citr hinvited ranged opponent hTeam hsome arena harena moved started next rest
      ih =>
    intro pair hpair
    rcases List.mem_cons.mp hpair with rfl | hrest
    · rcases Option.or_eq_some_iff.mp hsome with hali | ⟨-,hhorde⟩
      · exact List.find?_some hali
      · exact List.find?_some hhorde
    · exact ih pair hrest

/-- The opponent's rating is within the range of the first team. -/
def InRange (world : World) (pair : ArenaMatch) : Prop :=
  arenaMinRating world (pair.q.info pair.aTeam) ≤ (pair.q.info pair.hTeam).ArenaMatchmakerRating ∧
    (pair.q.info pair.hTeam).ArenaMatchmakerRating ≤ arenaMaxRating world (pair.q.info pair.aTeam)

instance (world : World) (pair : ArenaMatch) : Decidable (InRange world pair) :=
  inferInstanceAs (Decidable (_ ∧ _))

/-- A pair is right about the time exactly where the clock is. -/
theorem waited_iff_timely {citr : List Ptr} {q : BattlegroundQueue} {pair : ArenaMatch}
    (hpair : pair∈(pairArenaLog world bracket_id queueGroupType citr q).2) :
    InRange world pair ∨
        Waited world.GetRatingDiscardTimer (pair.q.info pair.hTeam).JoinTime
          (world.getMSTime (ClockReading.discard pair.aTeam)) ↔
      InRange world pair ∨
        Timely world.GetRatingDiscardTimer (pair.q.info pair.hTeam).JoinTime
          (world.getMSTime (ClockReading.discard pair.aTeam)) := by
  have hopponent := arenaOpponent_of_mem_log citr q pair hpair
  simp only [arenaOpponent,Bool.and_eq_true,Bool.or_eq_true,decide_eq_true_eq] at hopponent
  have hexpired := expired_iff_timely world.GetRatingDiscardTimer (pair.q.info pair.hTeam).JoinTime
    (world.getMSTime (ClockReading.discard pair.aTeam))
  have hwhy : InRange world pair ∨ (pair.q.info pair.hTeam).JoinTime<
      world.getMSTime (ClockReading.discard pair.aTeam)-world.GetRatingDiscardTimer :=
    hopponent.1.2
  constructor
  · rintro (hrange | hwaited)
    · exact Or.inl hrange
    · exact Or.inr (hexpired.mp fun _ => hwaited)
  · rintro (hrange | htimely)
    · exact Or.inl hrange
    · exact hwhy.imp_right (hexpired.mpr htimely)

end Arena

/-- `CheckPremadeMatch` moves only groups that waited longer than the configured time or are too
small, and the rated arena pairs only teams in range or that waited longer than the
timer: this is so exactly where the clock has passed the wait of each group in question. -/
theorem thresholds_respect_time_iff (world : World) (bracket_id : BattlegroundBracketId)
    (MinPlayersPerTeam MaxPlayersPerTeam : ℕ) (queueGroupType : Team) (citr : List Ptr)
    (q : BattlegroundQueue) :
    ((∀ team ginfo,
        MovedToNormal bracket_id team q
            (CheckPremadeMatch world bracket_id MinPlayersPerTeam MaxPlayersPerTeam q).1 ginfo →
          Waited world.premadeWait (q.info ginfo).JoinTime
              (world.getMSTime ClockReading.premade) ∨ q.size ginfo < MinPlayersPerTeam) ↔
      (PremadeMatch bracket_id q ∨ ∀ team ginfo,
        (q.m_QueuedGroups (bracket_id,BG_QUEUE_PREMADE team)).head?=some ginfo →
          q.invited ginfo=true ∨ q.size ginfo < MinPlayersPerTeam ∨
            Timely world.premadeWait (q.info ginfo).JoinTime
              (world.getMSTime ClockReading.premade))) ∧
    ∀ pair∈(pairArenaLog world bracket_id queueGroupType citr q).2,
      (InRange world pair ∨
          Waited world.GetRatingDiscardTimer (pair.q.info pair.hTeam).JoinTime
            (world.getMSTime (ClockReading.discard pair.aTeam)) ↔
        InRange world pair ∨
          Timely world.GetRatingDiscardTimer (pair.q.info pair.hTeam).JoinTime
            (world.getMSTime (ClockReading.discard pair.aTeam))) := by
  refine ⟨?_,fun pair hpair => waited_iff_timely hpair⟩
  simp only [movedToNormal_CheckPremadeMatch]
  constructor
  · intro h
    by_cases hmatch : PremadeMatch bracket_id q
    · exact Or.inl hmatch
    refine Or.inr fun team ginfo hhead => ?_
    by_cases hinvited : q.invited ginfo=true
    · exact Or.inl hinvited
    · by_cases hsize : q.size ginfo < MinPlayersPerTeam
      · exact Or.inr (Or.inl hsize)
      refine Or.inr (Or.inr ((expired_iff_timely _ _ _).mp fun hold => ?_))
      have hmoves : Moves world bracket_id MinPlayersPerTeam team q ginfo :=
        ⟨hhead,Bool.eq_false_of_not_eq_true hinvited,Or.inl hold⟩
      exact (h team ginfo ⟨hmatch,hmoves⟩).resolve_right hsize
  · rintro h team ginfo ⟨hmatch,hhead,hinvited,hwhy⟩
    rcases h.resolve_left hmatch team ginfo hhead with hi | hsize | htimely
    · exact absurd (hinvited.symm.trans hi) (by decide)
    · exact Or.inr hsize
    · exact hwhy.imp_left ((expired_iff_timely _ _ _).mpr htimely)

/-- A server that is up for a minute, with waits of 30 and 10 minutes. -/
def startupWorld : World :=
  { skirmishWorld with
    getMSTime := fun _ => 60000
    premadeWait := 1800000
    GetRatingDiscardTimer := 600000
    ratedBattleground := fun _ => some (skirmishArena 7) }

/-- Two alliance groups of two, far apart in rating, that joined in the last minute. -/
def startupQueue : BattlegroundQueue :=
  { BattlegroundQueue.empty with
    heap := fun ginfo =>
      if ginfo=1 then
        some { (skirmishJoin 10).ginfo with
          Players := {10,11}, ArenaTeamIdOrRbgLeaderGuid := 1, JoinTime := 1000,
          ArenaMatchmakerRating := 1500 }
      else if ginfo=2 then
        some { (skirmishJoin 20).ginfo with
          Players := {20,21}, ArenaTeamIdOrRbgLeaderGuid := 2, JoinTime := 2000,
          ArenaMatchmakerRating := 3000 }
      else none
    m_QueuedGroups := fun slot =>
      if slot=(0,BG_QUEUE_PREMADE ALLIANCE) then [1,2] else [] }

/-- After less than a minute in the queue, a large enough premade group is moved, and two
teams out of each other's range are paired. -/
theorem thresholds_wrap_at_startup :
    (MovedToNormal 0 ALLIANCE startupQueue (CheckPremadeMatch startupWorld 0 2 10 startupQueue).1 1 ∧
      ¬Waited startupWorld.premadeWait (startupQueue.info 1).JoinTime
        (startupWorld.getMSTime ClockReading.premade) ∧ ¬startupQueue.size 1 < 2) ∧
    ∃ pair∈(pairArenaLog startupWorld 0 ALLIANCE [1,2] startupQueue).2,
      ¬InRange startupWorld pair ∧
        ¬Waited startupWorld.GetRatingDiscardTimer (pair.q.info pair.hTeam).JoinTime
          (startupWorld.getMSTime (ClockReading.discard pair.aTeam)) := by
  refine ⟨⟨by unfold MovedToNormal; decide,by decide,by decide⟩,
    ⟨increaseRange startupWorld startupQueue 1,1,2⟩,?_,by decide,by decide⟩
  rw [pairArenaLog,if_neg (by decide)]
  exact List.mem_cons_self

end Projectnelth.BattlegroundQueueModel
