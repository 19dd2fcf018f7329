import Mathlib
import Projectnelth.GroupLootModel
import Projectnelth.KeyedList

/-!
# The votes of a roll

The counters of a roll mirror its votes as long as each player votes once. The winner
that is found by going through the votes is one whose vote counts, with the highest dice.
-/

namespace Projectnelth.GroupLootModel

open KeyedList

/-- The number of players with such a vote. -/
def votesFor (counts : RollVote → Bool) (votes : PlayerVote) : ℕ :=
  votes.countP fun entry => counts entry.2

/-- The numbers of the votes of a roll. -/
structure Tally (votes : PlayerVote) (rolling need greed pass : ℕ) : Prop where
  players : (votes.map Prod.fst).Nodup
  /-- No more players than a group has. -/
  size : votes.length ≤ 40
  valid : ∀ entry∈votes,entry.2≠.notValid
  rolling : rolling=votes.length
  need : need=votesFor (fun vote => decide (vote=.need)) votes
  greed : greed=votesFor wants votes
  pass : pass=votesFor (fun vote => decide (vote=.pass)) votes

/-- The counters of a roll are those of its votes. -/
def Tallied (roll : Roll) : Prop :=
  Tally roll.playerVote roll.totalPlayersRolling.toNat roll.totalNeed.toNat roll.totalGreed.toNat
    roll.totalPass.toNat

section Votes
variable {votes votes' : PlayerVote} {guid : UInt64} {v : RollVote} {counts : RollVote → Bool}

theorem votesFor_perm (h : votes.Perm votes') (counts : RollVote → Bool) :
    votesFor counts votes=votesFor counts votes' := h.countP_eq _

theorem votesFor_cons (counts : RollVote → Bool) (entry : UInt64×RollVote) (votes : PlayerVote) :
    votesFor counts (entry::votes)=votesFor counts votes+if counts entry.2 then 1 else 0 :=
  List.countP_cons

theorem votesFor_pos : 0 < votesFor counts votes ↔ ∃ entry∈votes,counts entry.2 :=
  List.countP_pos_iff

theorem votesFor_eq_zero : votesFor counts votes=0 ↔ ∀ entry∈votes,¬counts entry.2 :=
  List.countP_eq_zero

/-- A player without a vote comes in at its place. -/
theorem assign_perm (h : guid∉votes.map Prod.fst) :
    (assign guid v votes).Perm ((guid,v)::votes) := by
  induction votes with
  | nil => exact List.Perm.refl _
  | cons entry rest ih =>
    rw [List.map_cons,List.mem_cons,not_or] at h
    unfold assign
    split
    · exact List.Perm.refl _
    · rw [if_neg h.1]
      exact ((ih h.2).cons entry).trans (List.Perm.swap _ _ _)

theorem votes_split (h : ∀ entry∈votes,entry.2≠.notValid) :
    votesFor (fun vote => decide (vote=.pass)) votes+votesFor (fun vote => decide (vote=.need)) votes+
      votesFor wants votes+votesFor (fun vote => decide (vote=.notEmitedYet)) votes=votes.length := by
  induction votes with
  | nil => rfl
  | cons entry votes ih =>
    have hrest := ih fun other hother => h other (List.mem_cons_of_mem _ hother)
    have hvalid := h entry List.mem_cons_self
    simp only [votesFor_cons,List.length_cons]
    obtain ⟨player,vote⟩ := entry
    cases vote with
    | notValid => exact absurd rfl hvalid
    | _ => simp [wants]; omega

end Votes

section Tallies
variable {votes votes' : PlayerVote} {guid : UInt64} {v : RollVote} {a b c d : ℕ}

theorem Tally.perm (h : Tally votes a b c d) (hperm : votes.Perm votes') : Tally votes' a b c d :=
  { players := (hperm.map Prod.fst).nodup_iff.mp h.players
    size := hperm.length_eq.symm.trans_le h.size
    valid := fun entry hentry => h.valid entry (hperm.symm.subset hentry)
    rolling := h.rolling.trans hperm.length_eq
    need := h.need.trans (votesFor_perm hperm _)
    greed := h.greed.trans (votesFor_perm hperm _)
    pass := h.pass.trans (votesFor_perm hperm _) }

theorem Tally.cons (h : Tally votes a b c d) (hnew : guid∉votes.map Prod.fst)
    (hroom : votes.length < 40) (hv : v≠.notValid) :
    Tally ((guid,v)::votes) (a+1) (b+if v=.need then 1 else 0) (c+if wants v then 1 else 0)
      (d+if v=.pass then 1 else 0) :=
  { players := List.nodup_cons.mpr ⟨hnew,h.players⟩
    size := hroom
    valid := List.forall_mem_cons.mpr ⟨hv,h.valid⟩
    rolling := congrArg (·+1) h.rolling
    need := by rw [votesFor_cons,h.need]; simp only [decide_eq_true_eq]
    greed := by rw [votesFor_cons,h.greed]
    pass := by rw [votesFor_cons,h.pass]; simp only [decide_eq_true_eq] }

/-- A vote goes. -/
theorem Tally.tail (h : Tally ((guid,v)::votes) a b c d) :
    Tally votes (a-1) (b-if v=.need then 1 else 0) (c-if wants v then 1 else 0)
      (d-if v=.pass then 1 else 0) :=
  { players := (List.nodup_cons.mp h.players).2
    size := (Nat.le_succ _).trans h.size
    valid := (List.forall_mem_cons.mp h.valid).2
    rolling := by rw [h.rolling]; rfl
    need := by rw [h.need,votesFor_cons]; simp only [decide_eq_true_eq,Nat.add_sub_cancel]
    greed := by rw [h.greed,votesFor_cons,Nat.add_sub_cancel]
    pass := by rw [h.pass,votesFor_cons]; simp only [decide_eq_true_eq,Nat.add_sub_cancel] }

/-- There are at least as many votes of a kind as the one that is seen. -/
theorem Tally.head_le (h : Tally ((guid,v)::votes) a b c d) :
    1 ≤ a ∧ (if v=.need then 1 else 0) ≤ b ∧ (if wants v then 1 else 0) ≤ c ∧
      (if v=.pass then 1 else 0) ≤ d := by
  refine ⟨by rw [h.rolling]; exact Nat.succ_pos _,?_,?_,?_⟩
  · rw [h.need,votesFor_cons]
    simp only [decide_eq_true_eq]
    exact Nat.le_add_left _ _
  · rw [h.greed,votesFor_cons]
    exact Nat.le_add_left _ _
  · rw [h.pass,votesFor_cons]
    simp only [decide_eq_true_eq]
    exact Nat.le_add_left _ _

/-- No number exceeds the players that roll. -/
theorem Tally.le_size (h : Tally votes a b c d) :
    a ≤ 40 ∧ b ≤ votes.length ∧ c ≤ votes.length ∧ d ≤ votes.length :=
  ⟨h.rolling.trans_le h.size,h.need.trans_le List.countP_le_length,
    h.greed.trans_le List.countP_le_length,h.pass.trans_le List.countP_le_length⟩

end Tallies

theorem toNat_add_one {n : UInt8} (h : n.toNat < 40) : (n+1).toNat=n.toNat+1 := by
  rw [UInt8.toNat_add]
  exact Nat.mod_eq_of_lt (by simp only [UInt8.toNat_one]; omega)

theorem toNat_sub_one {n : UInt8} (h : 1 ≤ n.toNat) : (n-1).toNat=n.toNat-1 := by
  rw [UInt8.toNat_sub_of_le]
  · rfl
  · rw [UInt8.le_iff_toNat_le,UInt8.toNat_one]
    exact h

section Rolls
variable {roll : Roll} {guid : UInt64}

/-- Another player takes part. -/
theorem tallied_enter (h : Tallied roll) (w : LootWorld) (autoPass : Bool)
    (hnew : guid∉roll.playerVote.map Prod.fst) (hroom : roll.playerVote.length < 40) :
    Tallied (enter w autoPass roll guid) ∧
      (enter w autoPass roll guid).playerVote.Perm
        ((guid,if autoPass && w.passOnGroupLoot guid then .pass else .notEmitedYet)::
          roll.playerVote) := by
  have hrolling : (roll.totalPlayersRolling+1).toNat=roll.totalPlayersRolling.toNat+1 :=
    toNat_add_one (h.rolling.trans_lt hroom)
  have hpass : (roll.totalPass+1).toNat=roll.totalPass.toNat+1 :=
    toNat_add_one (h.le_size.2.2.2.trans_lt hroom)
  have hvotes := fun (v : RollVote) (hv : v≠.notValid) =>
    (h.cons hnew hroom hv).perm (assign_perm hnew).symm
  unfold enter
  split
  · refine ⟨?_,assign_perm hnew⟩
    have hentered := hvotes .pass (by decide)
    rw [←hrolling] at hentered
    simp only [if_true,reduceCtorEq,if_false,wants,Bool.false_eq_true,Nat.add_zero] at hentered
    rwa [←hpass] at hentered
  · refine ⟨?_,assign_perm hnew⟩
    have hentered := hvotes .notEmitedYet (by decide)
    rw [←hrolling] at hentered
    simp only [reduceCtorEq,if_false,wants,Bool.false_eq_true,Nat.add_zero] at hentered
    exact hentered

theorem tallied_newRoll (w : LootWorld) (autoPass : Bool) (itemGUID loot slot : ℕ)
    (item : LootItem) : Tallied (newRoll w autoPass itemGUID loot slot item) := by
  have hfold : ∀ (players : List UInt64) (roll : Roll),Tallied roll → players.Nodup →
      (∀ guid∈players,guid∉roll.playerVote.map Prod.fst) →
      roll.playerVote.length+players.length ≤ 40 →
      Tallied (players.foldl (enter w autoPass) roll) := by
    intro players
    induction players with
    | nil => exact fun roll h _ _ _ => h
    | cons guid players ih =>
      intro roll h hnodup hnew hroom
      rw [List.nodup_cons] at hnodup
      rw [List.length_cons] at hroom
      obtain ⟨hentered,hperm⟩ :=
        tallied_enter h w autoPass (hnew guid List.mem_cons_self) (by omega)
      refine ih _ hentered hnodup.2 (fun other hother hmem => ?_) ?_
      · rcases List.mem_cons.mp ((hperm.map Prod.fst).subset hmem) with rfl | hold
        · exact hnodup.1 hother
        · exact hnew other (List.mem_cons_of_mem _ hother) hold
      · rw [hperm.length_eq,List.length_cons]
        omega
  refine hfold _ _ ⟨List.nodup_nil,Nat.zero_le _,fun _ h => (by cases h),rfl,rfl,rfl,rfl⟩
    (w.distinct.filter _) (fun _ _ => List.not_mem_nil) ?_
  exact (Nat.zero_add _).trans_le ((List.length_filter_le _ _).trans w.size)

theorem newRoll_about (w : LootWorld) (autoPass : Bool) (itemGUID loot slot : ℕ)
    (item : LootItem) : (newRoll w autoPass itemGUID loot slot item).itemGUID=itemGUID ∧
      (newRoll w autoPass itemGUID loot slot item).loot=loot ∧
      (newRoll w autoPass itemGUID loot slot item).itemSlot=slot := by
  have hfold : ∀ (players : List UInt64) (roll : Roll),
      (players.foldl (enter w autoPass) roll).itemGUID=roll.itemGUID ∧
      (players.foldl (enter w autoPass) roll).loot=roll.loot ∧
      (players.foldl (enter w autoPass) roll).itemSlot=roll.itemSlot := by
    intro players
    induction players with
    | nil => exact fun roll => ⟨rfl,rfl,rfl⟩
    | cons guid players ih =>
      intro roll
      have hrest := ih (enter w autoPass roll guid)
      have henter : (enter w autoPass roll guid).itemGUID=roll.itemGUID ∧
          (enter w autoPass roll guid).loot=roll.loot ∧
          (enter w autoPass roll guid).itemSlot=roll.itemSlot := by
        unfold enter
        split <;> exact ⟨rfl,rfl,rfl⟩
      rw [henter.1,henter.2.1,henter.2.2] at hrest
      exact hrest
  exact hfold _ _

/-- A first vote keeps the counters right. -/
theorem tallied_countChoice (h : Tallied roll) {choice : UInt8}
    (hvote : choice < MAX_ROLL_TYPE → lookup Prod.fst guid roll.playerVote=some (guid,.notEmitedYet)) :
    Tallied (countChoice roll guid choice) := by
  by_cases hchoice : choice < MAX_ROLL_TYPE
  · have hlookup := hvote hchoice
    have hold := perm_cons_remove h.players hlookup
    have hnew : ∀ v,((guid,v)::remove Prod.fst guid roll.playerVote).Perm (vote roll guid v) :=
      fun v => (replace_perm (b := (guid,v)) h.players hlookup).symm
    have htail := (h.perm hold).tail
    have hhead := (h.perm hold).head_le.1
    have hfresh : guid∉(remove Prod.fst guid roll.playerVote).map Prod.fst :=
      (List.nodup_cons.mp (h.perm hold).players).1
    have hless : (remove Prod.fst guid roll.playerVote).length < 40 :=
      hold.length_eq.symm.trans_le h.size
    have hcounted := fun (v : RollVote) (hv : v≠.notValid) =>
      (htail.cons hfresh hless hv).perm (hnew v)
    simp only [reduceCtorEq,if_false,wants,Bool.false_eq_true,Nat.sub_zero,
      Nat.sub_add_cancel hhead] at hcounted htail
    have hneed := toNat_add_one (htail.le_size.2.1.trans_lt hless)
    have hgreed := toNat_add_one (htail.le_size.2.2.1.trans_lt hless)
    have hpass := toNat_add_one (htail.le_size.2.2.2.trans_lt hless)
    unfold Tallied countChoice
    split
    · simpa only [reduceCtorEq,if_false,if_true,Nat.add_zero,←hpass] using
        hcounted .pass (by decide)
    split
    · simpa only [reduceCtorEq,if_false,if_true,Nat.add_zero,←hneed] using
        hcounted .need (by decide)
    split
    · simpa only [reduceCtorEq,if_false,if_true,Nat.add_zero,←hgreed] using
        hcounted .greed (by decide)
    split
    · simpa only [reduceCtorEq,if_false,if_true,Nat.add_zero,←hgreed] using
        hcounted .disenchant (by decide)
    · exact h
  · have hnone : countChoice roll guid choice=roll := by
      unfold countChoice
      rw [if_neg fun (heq : choice=0) => hchoice (heq ▸ by decide),
        if_neg fun (heq : choice=1) => hchoice (heq ▸ by decide),
        if_neg fun (heq : choice=2) => hchoice (heq ▸ by decide),
        if_neg fun (heq : choice=3) => hchoice (heq ▸ by decide)]
    rw [hnone]
    exact h

/-- Leaving keeps the counters right. -/
theorem tallied_leaveRoll (h : Tallied roll) (guid : UInt64) : Tallied (leaveRoll guid roll) := by
  unfold leaveRoll
  split
  · exact h
  rename_i player v hfind
  have hlookup : lookup Prod.fst guid roll.playerVote=some (player,v) := hfind
  obtain rfl : player=guid := key_of_lookup hlookup
  have hold := h.perm (perm_cons_remove h.players hlookup)
  obtain ⟨hrolling,hneed,hgreed,hpass⟩ := hold.head_le
  have htail := hold.tail
  have hvalid : v≠.notValid := h.valid _ (mem_of_lookup hlookup)
  rw [←toNat_sub_one hrolling] at htail
  have hremove : (roll.playerVote.filter fun entry => entry.1≠player)=
      remove Prod.fst player roll.playerVote := rfl
  unfold Tallied
  rw [hremove]
  cases v with
  | notValid => exact absurd rfl hvalid
  | pass =>
    simp only [if_true] at hpass htail
    rw [←toNat_sub_one hpass] at htail
    simpa [wants] using htail
  | need =>
    simp only [if_true] at hneed htail
    rw [←toNat_sub_one hneed] at htail
    simpa [wants] using htail
  | greed =>
    simp only [wants,if_true] at hgreed htail
    rw [←toNat_sub_one hgreed] at htail
    simpa using htail
  | disenchant =>
    simp only [wants,if_true] at hgreed htail
    rw [←toNat_sub_one hgreed] at htail
    simpa using htail
  | notEmitedYet => simpa [wants] using htail

theorem countChoice_about (roll : Roll) (guid : UInt64) (choice : UInt8) :
    (countChoice roll guid choice).itemGUID=roll.itemGUID ∧
      (countChoice roll guid choice).loot=roll.loot ∧
      (countChoice roll guid choice).itemSlot=roll.itemSlot := by
  unfold countChoice
  split
  · exact ⟨rfl,rfl,rfl⟩
  split
  · exact ⟨rfl,rfl,rfl⟩
  · split
    · exact ⟨rfl,rfl,rfl⟩
    · split <;> exact ⟨rfl,rfl,rfl⟩

theorem leaveRoll_about (guid : UInt64) (roll : Roll) :
    (leaveRoll guid roll).itemGUID=roll.itemGUID ∧ (leaveRoll guid roll).loot=roll.loot ∧
      (leaveRoll guid roll).itemSlot=roll.itemSlot := by
  unfold leaveRoll
  split <;> exact ⟨rfl,rfl,rfl⟩

theorem leaveRoll_gone (guid : UInt64) (roll : Roll) :
    ∀ entry∈(leaveRoll guid roll).playerVote,entry.1≠guid := by
  unfold leaveRoll
  split
  · rename_i hnone
    exact fun entry hentry heq => List.find?_eq_none.mp hnone entry hentry (decide_eq_true heq)
  · exact fun entry hentry => of_decide_eq_true (List.mem_filter.mp hentry).2

end Rolls

/-- Going through the votes keeps the best one so far. -/
theorem best_spec {dice : UInt64 → ℕ} {counts : RollVote → Bool} {votes : PlayerVote}
    (hdice : ∀ guid,0 < dice guid) (hsome : ∃ entry∈votes,counts entry.2) :
    ∃ vote,(best dice counts votes).2.2=vote ∧ ((best dice counts votes).1,vote)∈votes ∧
      counts vote ∧ ∀ entry∈votes,counts entry.2 → dice entry.1 ≤ dice (best dice counts votes).1 := by
  have hfold : ∀ (rest : PlayerVote) (start : UInt64×ℕ×RollVote) (result : UInt64×ℕ×RollVote),
      rest.foldl (fun best entry =>
        if counts entry.2 ∧ best.2.1 < dice entry.1 then (entry.1,dice entry.1,entry.2) else best)
        start=result →
      start.2.1 ≤ result.2.1 ∧ (∀ entry∈rest,counts entry.2 → dice entry.1 ≤ result.2.1) ∧
      (result=start ∨ (result.1,result.2.2)∈rest ∧ counts result.2.2 ∧
        result.2.1=dice result.1) := by
    intro rest
    induction rest with
    | nil =>
      rintro start result rfl
      exact ⟨Nat.le_refl _,fun _ h => (by cases h),Or.inl rfl⟩
    | cons entry rest ih =>
      intro start result hresult
      rw [List.foldl_cons] at hresult
      obtain ⟨hle,hall,hfrom⟩ := ih _ result hresult
      by_cases hbetter : counts entry.2 ∧ start.2.1 < dice entry.1
      · rw [if_pos hbetter] at hle hfrom
        refine ⟨hbetter.2.le.trans hle,List.forall_mem_cons.mpr ⟨fun _ => hle,hall⟩,Or.inr ?_⟩
        rcases hfrom with rfl | ⟨hmem,hcounts,heq⟩
        · exact ⟨List.mem_cons_self,hbetter.1,rfl⟩
        · exact ⟨List.mem_cons_of_mem _ hmem,hcounts,heq⟩
      · rw [if_neg hbetter] at hle hfrom
        refine ⟨hle,List.forall_mem_cons.mpr ⟨fun hcounts => ?_,hall⟩,?_⟩
        · exact (Nat.not_lt.mp fun hlt => hbetter ⟨hcounts,hlt⟩).trans hle
        · exact hfrom.imp_right fun ⟨hmem,hcounts,heq⟩ =>
            ⟨List.mem_cons_of_mem _ hmem,hcounts,heq⟩
  obtain ⟨-,hall,hfrom⟩ := hfold votes _ (best dice counts votes) rfl
  obtain ⟨entry,hentry,hcounts⟩ := hsome
  have hpos := (hdice entry.1).trans_le (hall entry hentry hcounts)
  rcases hfrom with hstart | ⟨hmem,hwins,heq⟩
  · rw [hstart] at hpos
    exact absurd hpos (Nat.lt_irrefl 0)
  · exact ⟨_,rfl,hmem,hwins,fun other hother hcounts => (hall other hother hcounts).trans_eq heq⟩

end Projectnelth.GroupLootModel
