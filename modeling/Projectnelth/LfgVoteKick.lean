import Mathlib
import Projectnelth.OrderedMap
import Projectnelth.RunInvariant

/-!
# The vote on a kick from a dungeon finder group

`InitBoot` registers the players of the group as voters, the victim against and the kicker for the
kick. `UpdateBoot` takes an answer, counts all votes of the record and ends the vote when the one
side or the other has what is needed. It reads the caller's vote by indexing the map, which makes
a vote against the kick for a caller that was not registered. So what it does is the vote of the
registered players as long as no other member answers. What a removal does to the group, the
messages to the players and the end of the vote by time are outside.
-/

namespace Projectnelth.LfgVoteKick

open OrderedMap RunInvariant

inductive LfgAnswer
  | LFG_ANSWER_PENDING
  | LFG_ANSWER_DENY
  | LFG_ANSWER_AGREE
  deriving DecidableEq

open LfgAnswer

/-- The answer of value zero. -/
instance : Inhabited LfgAnswer := ⟨LFG_ANSWER_DENY⟩

/-- `LfgAnswer(accept)`. -/
def LfgAnswer.ofBool (accept : Bool) : LfgAnswer :=
  if accept then LFG_ANSWER_AGREE else LFG_ANSWER_DENY

theorem LfgAnswer.ofBool_ne (accept : Bool) : LfgAnswer.ofBool accept≠LFG_ANSWER_PENDING := by
  cases accept <;> decide

/-- `LfgAnswerContainer`: the votes by player. -/
structure LfgAnswerContainer where
  /-- The players with their votes. -/
  entries : List (ℕ×LfgAnswer)
  /-- The players stand in their order. -/
  sorted : Sorted entries

namespace LfgAnswerContainer

variable (votes : LfgAnswerContainer) (guid : ℕ)

/-- No votes. -/
def empty : LfgAnswerContainer := ⟨[],List.Pairwise.nil⟩

/-- The vote of a player is written. -/
def set (answer : LfgAnswer) : LfgAnswerContainer :=
  ⟨write guid answer votes.entries,votes.sorted.write guid answer⟩

/-- The vote of a player. -/
def get : Option LfgAnswer := find guid votes.entries

/-- `votes[guid]`: the vote of a player and the map, where a vote that is not there is made. -/
def index : LfgAnswer×LfgAnswerContainer :=
  match votes.get guid with
  | some answer => (answer,votes)
  | none => (default,votes.set guid default)

/-- `votesNum` and `agreeNum`: the votes that are cast and those for the kick, counted in bytes. -/
def tally : UInt8×UInt8 :=
  votes.entries.foldl (fun n x =>
    if x.2≠LFG_ANSWER_PENDING then (n.1+1,if x.2=LFG_ANSWER_AGREE then n.2+1 else n.2) else n) (0,0)

/-- The votes of one kind. -/
def count (answer : LfgAnswer) : ℕ := votes.entries.countP fun x => x.2=answer

variable {votes guid}

theorem get_set (guid guid' : ℕ) (answer : LfgAnswer) :
    (votes.set guid answer).get guid'=if guid=guid' then some answer else votes.get guid' :=
  find_write guid guid' answer votes.entries

theorem index_of_some {answer : LfgAnswer} (h : votes.get guid=some answer) :
    votes.index guid=(answer,votes) := by
  unfold index
  rw [h]

theorem index_of_none (h : votes.get guid=none) :
    votes.index guid=(LFG_ANSWER_DENY,votes.set guid LFG_ANSWER_DENY) := by
  unfold index
  rw [h]
  rfl

theorem get_eq_some_iff {answer : LfgAnswer} :
    votes.get guid=some answer ↔ (guid,answer)∈votes.entries :=
  ⟨mem_of_find,fun h => votes.sorted.find_of_mem h⟩

/-- The votes of one kind are those of the players that have it. -/
theorem count_of_get {voters : Finset ℕ} {vote : ℕ → LfgAnswer}
    (h : ∀ guid,votes.get guid=if guid∈voters then some (vote guid) else none)
    (answer : LfgAnswer) :
    votes.count answer=(voters.filter fun guid => vote guid=answer).card := by
  have hnodup : ((votes.entries.filter fun x => x.2=answer).map Prod.fst).Nodup :=
    (List.pairwise_map.mpr (votes.sorted.imp ne_of_lt)).sublist
      (List.filter_sublist.map Prod.fst)
  have hset : ((votes.entries.filter fun x => x.2=answer).map Prod.fst).toFinset=
      voters.filter fun guid => vote guid=answer := by
    ext guid
    have hget : (guid,answer)∈votes.entries ↔ guid∈voters ∧ vote guid=answer := by
      rw [← get_eq_some_iff,h guid]
      split_ifs with hguid
      · rw [Option.some.injEq]
        exact (and_iff_right hguid).symm
      · exact iff_of_false id fun hand => hguid hand.1
    rw [List.mem_toFinset,List.mem_map,Finset.mem_filter,← hget]
    constructor
    · rintro ⟨⟨guid',answer'⟩,hmem,rfl⟩
      obtain ⟨hmem,hanswer⟩ := List.mem_filter.mp hmem
      rw [← of_decide_eq_true hanswer]
      exact hmem
    · exact fun hmem => ⟨_,List.mem_filter.mpr ⟨hmem,decide_eq_true rfl⟩,rfl⟩
  rw [← hset,List.toFinset_card_of_nodup hnodup,List.length_map]
  exact List.countP_eq_length_filter

theorem tally_eq (votes : LfgAnswerContainer) :
    votes.tally=(UInt8.ofNat (votes.count LFG_ANSWER_AGREE+votes.count LFG_ANSWER_DENY),
      UInt8.ofNat (votes.count LFG_ANSWER_AGREE)) := by
  have hfold : ∀ (l : List (ℕ×LfgAnswer)) (n : UInt8×UInt8),
      l.foldl (fun n x => if x.2≠LFG_ANSWER_PENDING then
        (n.1+1,if x.2=LFG_ANSWER_AGREE then n.2+1 else n.2) else n) n=
      (n.1+UInt8.ofNat (l.countP (fun x => x.2=LFG_ANSWER_AGREE)+
        l.countP fun x => x.2=LFG_ANSWER_DENY),
        n.2+UInt8.ofNat (l.countP fun x => x.2=LFG_ANSWER_AGREE)) := by
    intro l
    induction l with
    | nil => intro n; simp
    | cons x l ih =>
      intro n
      obtain ⟨guid,answer⟩ := x
      rw [List.foldl_cons,ih,List.countP_cons,List.countP_cons]
      cases answer with
      | LFG_ANSWER_PENDING => simp
      | LFG_ANSWER_DENY =>
        simp only [UInt8.ofNat_add]
        simp
        ac_rfl
      | LFG_ANSWER_AGREE =>
        simp only [UInt8.ofNat_add]
        simp
        constructor <;> ac_rfl
  unfold tally count
  rw [hfold]
  simp

end LfgAnswerContainer

structure LfgPlayerBoot where
  /-- When the vote is given up. -/
  cancelTime : ℤ
  /-- The vote is going on. -/
  inProgress : Bool
  votes : LfgAnswerContainer
  /-- The player to be kicked. -/
  victim : ℕ
  reason : String

/-- The record that indexing makes. -/
instance : Inhabited LfgPlayerBoot := ⟨0,false,LfgAnswerContainer.empty,0,""⟩

/-- `LfgGroupData`: what votes on kicks use of it. -/
structure LfgGroupData where
  /-- `m_Players`. -/
  players : List ℕ
  /-- `m_KicksLeft`. -/
  kicksLeft : UInt8
  /-- `m_VoteKickActive`. -/
  voteKickActive : Bool
  /-- `m_VoteKickCooldown`. -/
  voteKickCooldown : ℕ

def LfgGroupData.DecreaseKicksLeft (data : LfgGroupData) : LfgGroupData :=
  { data with kicksLeft := if data.kicksLeft≠0 then data.kicksLeft-1 else data.kicksLeft }

/-- A group as the group manager has it. -/
structure Group where
  isLFRGroup : Bool

def GUID_LOPART (guid : ℕ) : ℕ := guid % 2^32

def LFG_TIME_BOOT : ℤ := 120

/-- `LFR_GROUP_KICK_VOTES_NEEDED` or `LFG_GROUP_KICK_VOTES_NEEDED`. -/
def KICK_VOTES_NEEDED (isLfrGroup : Bool) : ℕ := if isLfrGroup then 15 else 3

/-- `LFGMgr`: what votes on kicks use of it, and the removals it has ordered. -/
structure LFGMgr where
  /-- `PlayersStore`: the group of each player, zero for none. -/
  PlayersStore : ℕ → ℕ
  /-- `GroupsStore`: the data of each group, those of a new one where it has none. -/
  GroupsStore : ℕ → LfgGroupData
  /-- `BootsStore`: the vote of each group. -/
  BootsStore : ℕ → Option LfgPlayerBoot
  /-- The calls of `RemoveFromGroup`: the group and the player. -/
  removed : List (ℕ×ℕ)

namespace LFGMgr

variable (s : LFGMgr)

/-- The data of a group is written. -/
def setGroupData (gguid : ℕ) (data : LfgGroupData) : LFGMgr :=
  { s with GroupsStore := Function.update s.GroupsStore gguid data }

def SetVoteKick (gguid : ℕ) (active : Bool) : LFGMgr :=
  s.setGroupData gguid { s.GroupsStore gguid with voteKickActive := active }

def DecreaseKicksLeft (gguid : ℕ) : LFGMgr :=
  s.setGroupData gguid (s.GroupsStore gguid).DecreaseKicksLeft

/-- `SetVoteKickCooldown`: the time in 32 bits. -/
def SetVoteKickCooldown (gguid : ℕ) (cooldownTime : ℤ) : LFGMgr :=
  s.setGroupData gguid
    { s.GroupsStore gguid with voteKickCooldown := (cooldownTime % 2^32).toNat }

/-- The record of a group is written or, without one, erased. -/
def setBoot (gguid : ℕ) (boot : Option LfgPlayerBoot) : LFGMgr :=
  { s with BootsStore := Function.update s.BootsStore gguid boot }

def InitBoot (gguid kicker victim : ℕ) (reason : String) (now : ℤ) : LFGMgr :=
  let s := s.SetVoteKick gguid true
  let boot := (s.BootsStore gguid).getD default
  let votes := (s.GroupsStore gguid).players.foldl
    (fun votes guid => votes.set guid LFG_ANSWER_PENDING) boot.votes
  let votes := (votes.set victim LFG_ANSWER_DENY).set kicker LFG_ANSWER_AGREE
  s.setBoot gguid (some ⟨now+LFG_TIME_BOOT,true,votes,victim,reason⟩)

/-- The end of a vote with so many votes for the kick. -/
def finishBoot (groups : ℕ → Option Group) (gguid victim agreeNum : ℕ) (isLfrGroup : Bool)
    (now : ℤ) : LFGMgr :=
  let s := s.SetVoteKick gguid false
  let s :=
    if agreeNum=KICK_VOTES_NEEDED isLfrGroup then
      let s := if (groups (GUID_LOPART gguid)).isSome then
          { s with removed := s.removed++[(gguid,victim)] }
        else s
      let s := if isLfrGroup then s else s.DecreaseKicksLeft gguid
      s.SetVoteKickCooldown gguid (now+15*60)
    else s
  s.setBoot gguid none

def UpdateBoot (groups : ℕ → Option Group) (guid : ℕ) (accept : Bool) (now : ℤ) : LFGMgr :=
  let gguid := s.PlayersStore guid
  if gguid=0 then s
  else
    match s.BootsStore gguid with
    | none => s
    | some boot =>
      let answer := boot.votes.index guid
      if answer.1≠LFG_ANSWER_PENDING then s.setBoot gguid (some { boot with votes := answer.2 })
      else
        let votes := answer.2.set guid (LfgAnswer.ofBool accept)
        let s := s.setBoot gguid (some { boot with votes := votes })
        let votesNum := votes.tally.1.toNat
        let agreeNum := votes.tally.2.toNat
        let isLfrGroup := (groups (GUID_LOPART gguid)).any Group.isLFRGroup
        if agreeNum < KICK_VOTES_NEEDED isLfrGroup ∧
            (votesNum : ℤ)-agreeNum < KICK_VOTES_NEEDED isLfrGroup then s
        else s.finishBoot groups gguid boot.victim agreeNum isLfrGroup now

end LFGMgr

/-- What happens after a vote was started. -/
inductive Action
  /-- A player comes into a group or, for zero, is in none any more. -/
  | SetGroup (guid group : ℕ)
  /-- A player answers. -/
  | UpdateBoot (guid : ℕ) (accept : Bool) (now : ℤ)

/-- One action. -/
def LFGMgr.step (groups : ℕ → Option Group) (s : LFGMgr) : Action → LFGMgr
  | .SetGroup guid group => { s with PlayersStore := Function.update s.PlayersStore guid group }
  | .UpdateBoot guid accept now => s.UpdateBoot groups guid accept now

/-- The answers that were given, the first one first. -/
def answers (as : List Action) : List (ℕ×Bool) :=
  as.filterMap fun a =>
    match a with
    | .SetGroup _ _ => none
    | .UpdateBoot guid accept _ => some (guid,accept)

/-- The answers are those of members of the group. -/
def ByMember (gguid : ℕ) (s : LFGMgr) : Action → Prop
  | .SetGroup _ _ => True
  | .UpdateBoot guid _ _ => s.PlayersStore guid=gguid

/-- A vote that is to be: who is asked, about whom, and what is needed. -/
structure Kick where
  gguid : ℕ
  /-- Its players when the vote is started. -/
  players : List ℕ
  /-- The player that has started the vote. -/
  kicker : ℕ
  /-- The player to be kicked. -/
  victim : ℕ
  /-- The votes that end it. -/
  needed : ℕ
  reason : String
  /-- When it is started. -/
  now : ℤ

namespace Kick

variable (k : Kick)

/-- The players that are asked. -/
def voters : Finset ℕ := insert k.kicker (insert k.victim k.players.toFinset)

/-- The vote of a player after some answers: the first answer, unless it was cast before. -/
def vote (calls : List (ℕ×Bool)) (guid : ℕ) : LfgAnswer :=
  if guid=k.kicker then LFG_ANSWER_AGREE
  else if guid=k.victim then LFG_ANSWER_DENY
  else ((calls.find? fun c => c.1=guid).map fun c => LfgAnswer.ofBool c.2).getD LFG_ANSWER_PENDING

/-- How many of the players that are asked vote so. -/
def votes (calls : List (ℕ×Bool)) (answer : LfgAnswer) : ℕ :=
  (k.voters.filter fun guid => k.vote calls guid=answer).card

/-- One side has the votes that are needed. -/
def Ends (calls : List (ℕ×Bool)) : Prop :=
  k.needed ≤ k.votes calls LFG_ANSWER_AGREE ∨ k.needed ≤ k.votes calls LFG_ANSWER_DENY

instance (calls : List (ℕ×Bool)) : Decidable (k.Ends calls) := inferInstanceAs (Decidable (_ ∨ _))

/-- The answers up to the one that gives a side the votes that are needed. -/
def FirstEnds (calls : List (ℕ×Bool)) : Prop :=
  k.Ends calls ∧ ∀ ps,ps <+: calls → ps≠calls → ¬k.Ends ps

/-- The vote is going on: the record has the votes of the players that were asked, and no others. -/
def Going (removed : List (ℕ×ℕ)) (calls : List (ℕ×Bool)) (s : LFGMgr) : Prop :=
  s.removed=removed ∧
    ∃ votes,s.BootsStore k.gguid=some ⟨k.now+LFG_TIME_BOOT,true,votes,k.victim,k.reason⟩ ∧
      ∀ guid,votes.get guid=if guid∈k.voters then some (k.vote calls guid) else none

/-- The vote is over: there is no record, and the victim is removed if the kick has its votes. -/
def Over (removed : List (ℕ×ℕ)) (calls : List (ℕ×Bool)) (s : LFGMgr) : Prop :=
  s.BootsStore k.gguid=none ∧
    s.removed=removed++
      if k.needed ≤ k.votes calls LFG_ANSWER_AGREE then [(k.gguid,k.victim)] else []

/-- What the state is to be after some answers. -/
structure Law (groups : ℕ → Option Group) (removed : List (ℕ×ℕ)) (calls : List (ℕ×Bool))
    (s : LFGMgr) : Prop where
  /-- Before one side has its votes the vote is going on. -/
  going : (∀ ps,ps <+: calls → ¬k.Ends ps) → k.Going removed calls s
  /-- From the first time on that one side has its votes the vote is over. -/
  ended : ∀ ps,ps <+: calls → k.FirstEnds ps → k.Over removed ps s
  /-- Who has voted changes nothing by another answer. -/
  again : ∀ guid∈k.voters,k.vote calls guid≠LFG_ANSWER_PENDING → s.PlayersStore guid=k.gguid →
    ∀ accept now,s.UpdateBoot groups guid accept now=s

variable {k} {calls ps : List (ℕ×Bool)} {guid : ℕ} {accept : Bool}

/-- Another answer counts if it is the first one of its player. -/
theorem vote_concat (calls : List (ℕ×Bool)) (guid : ℕ) (accept : Bool) (other : ℕ) :
    k.vote (calls++[(guid,accept)]) other=
      if other=guid ∧ k.vote calls guid=LFG_ANSWER_PENDING then LfgAnswer.ofBool accept
      else k.vote calls other := by
  by_cases hother : other=guid
  · subst hother
    unfold vote
    by_cases hk : other=k.kicker
    · simp [hk]
    by_cases hv : other=k.victim
    · simp [← hv,hk]
    rw [if_neg hk,if_neg hv,if_neg hk,if_neg hv,List.find?_append]
    cases hfind : calls.find? fun c => c.1=other with
    | none => simp
    | some c => simp [LfgAnswer.ofBool_ne]
  · rw [if_neg fun h => hother h.1]
    unfold vote
    rw [List.find?_append]
    have hnone : [(guid,accept)].find? (fun c => c.1=other)=none := by
      simpa using Ne.symm hother
    rw [hnone,Option.or_none]

theorem vote_of_voted (h : k.vote calls guid≠LFG_ANSWER_PENDING) (accept : Bool) :
    k.vote (calls++[(guid,accept)])=k.vote calls :=
  funext fun other => (vote_concat calls guid accept other).trans (if_neg fun hand => h hand.2)

/-- An answer gives a side one vote at most. -/
theorem votes_concat_le (calls : List (ℕ×Bool)) (guid : ℕ) (accept : Bool) (answer : LfgAnswer) :
    k.votes (calls++[(guid,accept)]) answer ≤ k.votes calls answer+1 := by
  refine (Finset.card_le_card fun other hother => ?_).trans (Finset.card_insert_le guid _)
  obtain ⟨hmem,hvote⟩ := Finset.mem_filter.mp hother
  by_cases hguid : other=guid
  · exact Finset.mem_insert.mpr (Or.inl hguid)
  · rw [vote_concat,if_neg fun h => hguid h.1] at hvote
    exact Finset.mem_insert_of_mem (Finset.mem_filter.mpr ⟨hmem,hvote⟩)

/-- No side has its votes when a vote is started. -/
theorem not_ends_nil (hneeded : 3 ≤ k.needed) : ¬k.Ends [] := by
  have htwo : ∀ answer≠LFG_ANSWER_PENDING,k.votes [] answer ≤ 2 := by
    intro answer hanswer
    have hsub : (k.voters.filter fun guid => k.vote [] guid=answer)⊆{k.kicker,k.victim} := by
      intro guid hguid
      by_contra hmem
      rw [Finset.mem_insert,Finset.mem_singleton,not_or] at hmem
      have hvote := (Finset.mem_filter.mp hguid).2
      unfold vote at hvote
      rw [if_neg hmem.1,if_neg hmem.2] at hvote
      exact hanswer hvote.symm
    exact (Finset.card_le_card hsub).trans Finset.card_le_two
  have hagree := htwo LFG_ANSWER_AGREE (by decide)
  have hdeny := htwo LFG_ANSWER_DENY (by decide)
  unfold Ends
  omega

/-- Where a side gets its votes there is a first time. -/
theorem exists_firstEnds (h : k.Ends ps) : ∃ qs,qs <+: ps ∧ k.FirstEnds qs := by
  induction hn : ps.length using Nat.strong_induction_on generalizing ps with
  | _ n ih =>
    by_cases hfirst : ∀ qs,qs <+: ps → qs≠ps → ¬k.Ends qs
    · exact ⟨ps,List.prefix_refl ps,h,hfirst⟩
    push Not at hfirst
    obtain ⟨qs,hqs,hne,hends⟩ := hfirst
    have hlt : qs.length < n := by
      rw [← hn]
      exact lt_of_le_of_ne hqs.length_le fun heq => hne (hqs.eq_of_length heq)
    obtain ⟨rs,hrs,hrsFirst⟩ := ih qs.length hlt hends rfl
    exact ⟨rs,hrs.trans hqs,hrsFirst⟩

theorem FirstEnds.unique {qs : List (ℕ×Bool)} (h : k.FirstEnds ps) (h' : k.FirstEnds qs)
    (hps : ps <+: calls) (hqs : qs <+: calls) : ps=qs := by
  rcases List.prefix_or_prefix_of_prefix hps hqs with hle | hle
  · exact by_contra fun hne => h'.2 ps hle hne h.1
  · exact by_contra fun hne => h.2 qs hle (Ne.symm hne) h'.1

end Kick

namespace LFGMgr

variable {groups : ℕ → Option Group} {s : LFGMgr} {guid gguid : ℕ} {accept : Bool} {now : ℤ}
variable {boot : LfgPlayerBoot} {answer : LfgAnswer}

/-- Without a vote nothing happens. -/
theorem UpdateBoot_none (hguid : s.PlayersStore guid=gguid) (h : s.BootsStore gguid=none) :
    s.UpdateBoot groups guid accept now=s := by
  unfold UpdateBoot
  dsimp only
  rw [hguid,h]
  exact ite_self s

/-- Who has voted changes nothing. -/
theorem UpdateBoot_voted (hguid : s.PlayersStore guid=gguid)
    (h : s.BootsStore gguid=some boot) (hget : boot.votes.get guid=some answer)
    (hanswer : answer≠LFG_ANSWER_PENDING) : s.UpdateBoot groups guid accept now=s := by
  unfold UpdateBoot
  dsimp only
  rw [hguid,h]
  dsimp only
  rw [LfgAnswerContainer.index_of_some hget,if_pos hanswer]
  split_ifs
  · rfl
  · show { s with BootsStore := Function.update s.BootsStore gguid (some boot) }=s
    rw [← h,Function.update_eq_self]

/-- A caller without a vote gets one against the kick. -/
theorem UpdateBoot_unregistered (hgguid : gguid≠0) (hguid : s.PlayersStore guid=gguid)
    (h : s.BootsStore gguid=some boot) (hget : boot.votes.get guid=none) :
    s.UpdateBoot groups guid accept now=
      s.setBoot gguid (some { boot with votes := boot.votes.set guid LFG_ANSWER_DENY }) := by
  unfold UpdateBoot
  dsimp only
  rw [hguid,if_neg hgguid,h]
  dsimp only
  rw [LfgAnswerContainer.index_of_none hget]
  rfl

theorem UpdateBoot_pending (hgguid : gguid≠0) (hguid : s.PlayersStore guid=gguid)
    (h : s.BootsStore gguid=some boot) (hget : boot.votes.get guid=some LFG_ANSWER_PENDING)
    {votes : LfgAnswerContainer} (hvotes : boot.votes.set guid (LfgAnswer.ofBool accept)=votes)
    {isLfrGroup : Bool} (hlfr : (groups (GUID_LOPART gguid)).any Group.isLFRGroup=isLfrGroup) :
    s.UpdateBoot groups guid accept now=
      if votes.tally.2.toNat < KICK_VOTES_NEEDED isLfrGroup ∧
          (votes.tally.1.toNat : ℤ)-votes.tally.2.toNat < KICK_VOTES_NEEDED isLfrGroup then
        s.setBoot gguid (some { boot with votes := votes })
      else (s.setBoot gguid (some { boot with votes := votes })).finishBoot groups gguid boot.victim
        votes.tally.2.toNat isLfrGroup now := by
  unfold UpdateBoot
  dsimp only
  rw [hguid,if_neg hgguid,h]
  dsimp only
  rw [LfgAnswerContainer.index_of_some hget,hvotes,hlfr]
  exact if_neg (not_not_intro rfl)

/-- The end of a vote takes the record away and orders the removal if the kick has its votes. -/
theorem finishBoot_eq {group : Group} (hgroup : groups (GUID_LOPART gguid)=some group)
    (victim agreeNum : ℕ) (isLfrGroup : Bool) (now : ℤ) :
    (s.finishBoot groups gguid victim agreeNum isLfrGroup now).BootsStore gguid=none ∧
      (s.finishBoot groups gguid victim agreeNum isLfrGroup now).removed=
        s.removed++if agreeNum=KICK_VOTES_NEEDED isLfrGroup then [(gguid,victim)] else [] := by
  refine ⟨by simp [finishBoot,setBoot],?_⟩
  unfold finishBoot
  rw [hgroup]
  dsimp only
  by_cases hagree : agreeNum=KICK_VOTES_NEEDED isLfrGroup
  · rw [if_pos hagree,if_pos hagree]
    cases isLfrGroup <;> rfl
  · rw [if_neg hagree,if_neg hagree]
    exact (List.append_nil _).symm

end LFGMgr

namespace Kick

variable {k : Kick} {groups : ℕ → Option Group} {group : Group} {removed : List (ℕ×ℕ)}
variable {calls : List (ℕ×Bool)} {s : LFGMgr} {guid : ℕ} {accept : Bool} {now : ℤ}

/-- The vote before and after the first time that a side has its votes is all of the law. -/
theorem law_of (going : (∀ ps,ps <+: calls → ¬k.Ends ps) → k.Going removed calls s)
    (ended : ∀ ps,ps <+: calls → k.FirstEnds ps → k.Over removed ps s) :
    k.Law groups removed calls s := by
  refine ⟨going,ended,fun guid hvoter hvote hguid accept now => ?_⟩
  by_cases hends : ∃ ps,ps <+: calls ∧ k.Ends ps
  · obtain ⟨ps,hps,hends⟩ := hends
    obtain ⟨qs,hqs,hfirst⟩ := exists_firstEnds hends
    exact LFGMgr.UpdateBoot_none hguid (ended qs (hqs.trans hps) hfirst).1
  · push Not at hends
    obtain ⟨-,votes,hboot,hget⟩ := going hends
    exact LFGMgr.UpdateBoot_voted hguid hboot ((hget guid).trans (if_pos hvoter)) hvote

/-- Who comes into a group or leaves one changes no vote. -/
theorem Law.SetGroup (h : k.Law groups removed calls s) (guid gguid : ℕ) :
    k.Law groups removed calls (s.step groups (.SetGroup guid gguid)) :=
  law_of h.going h.ended

/-- When the vote is over nothing changes it. -/
theorem Law.UpdateBoot_over (h : k.Law groups removed calls s) (hguid : s.PlayersStore guid=k.gguid)
    {ps : List (ℕ×Bool)} (hps : ps <+: calls) (hends : k.Ends ps) :
    k.Law groups removed (calls++[(guid,accept)]) (s.UpdateBoot groups guid accept now) := by
  obtain ⟨qs,hqs,hfirst⟩ := exists_firstEnds hends
  have hover := h.ended qs (hqs.trans hps) hfirst
  rw [LFGMgr.UpdateBoot_none hguid hover.1]
  have hqs' : qs <+: calls++[(guid,accept)] := (hqs.trans hps).trans (List.prefix_append _ _)
  refine law_of (fun hnone => absurd hfirst.1 (hnone qs hqs')) fun rs hrs hrsFirst => ?_
  rw [hrsFirst.unique hfirst hrs hqs']
  exact hover

/-- The law after one more answer, when no side had its votes before. -/
theorem law_concat (hnone : ∀ ps,ps <+: calls → ¬k.Ends ps)
    (going : ¬k.Ends (calls++[(guid,accept)]) → k.Going removed (calls++[(guid,accept)]) s)
    (ended : k.Ends (calls++[(guid,accept)]) → k.Over removed (calls++[(guid,accept)]) s) :
    k.Law groups removed (calls++[(guid,accept)]) s := by
  refine law_of (fun hnone' => going (hnone' _ (List.prefix_refl _))) fun ps hps hfirst => ?_
  rcases List.prefix_concat_iff.mp hps with rfl | hps
  · exact ended hfirst.1
  · exact absurd hfirst.1 (hnone ps hps)

theorem law_cast (hgguid : k.gguid≠0) (hgroup : groups (GUID_LOPART k.gguid)=some group)
    (hneeded : k.needed=KICK_VOTES_NEEDED group.isLFRGroup)
    (hguid : s.PlayersStore guid=k.gguid) (hnone : ∀ ps,ps <+: calls → ¬k.Ends ps)
    (hgoing : k.Going removed calls s) (hmem : guid∈k.voters)
    (hpending : k.vote calls guid=LFG_ANSWER_PENDING) :
    k.Law groups removed (calls++[(guid,accept)]) (s.UpdateBoot groups guid accept now) := by
  obtain ⟨hremoved,votes,hboot,hget⟩ := hgoing
  generalize hset : votes.set guid (LfgAnswer.ofBool accept)=votes'
  have hget' : ∀ other,votes'.get other=
      if other∈k.voters then some (k.vote (calls++[(guid,accept)]) other) else none := by
    intro other
    rw [← hset,LfgAnswerContainer.get_set,vote_concat]
    by_cases hother : guid=other
    · rw [if_pos hother,if_pos (hother ▸ hmem),if_pos ⟨hother.symm,hpending⟩]
    · have hne : ¬(other=guid ∧ k.vote calls guid=LFG_ANSWER_PENDING) :=
        fun hand => hother hand.1.symm
      rw [if_neg hother,hget other,if_neg hne]
  have hagree : votes'.count LFG_ANSWER_AGREE=k.votes (calls++[(guid,accept)]) LFG_ANSWER_AGREE :=
    LfgAnswerContainer.count_of_get hget' _
  have hdeny : votes'.count LFG_ANSWER_DENY=k.votes (calls++[(guid,accept)]) LFG_ANSWER_DENY :=
    LfgAnswerContainer.count_of_get hget' _
  -- no side has more votes than needed, so the bytes hold them
  have hbefore := hnone calls (List.prefix_refl calls)
  have hagreeLe := k.votes_concat_le calls guid accept LFG_ANSWER_AGREE
  have hdenyLe := k.votes_concat_le calls guid accept LFG_ANSWER_DENY
  have hle : KICK_VOTES_NEEDED group.isLFRGroup ≤ 15 := by
    cases group.isLFRGroup <;> decide
  unfold Ends at hbefore
  push Not at hbefore
  rw [hneeded] at hbefore
  have hagreeNum : votes'.tally.2.toNat=
      k.votes (calls++[(guid,accept)]) LFG_ANSWER_AGREE := by
    rw [LfgAnswerContainer.tally_eq,hagree]
    exact Nat.mod_eq_of_lt (by omega)
  have hvotesNum : votes'.tally.1.toNat=
      k.votes (calls++[(guid,accept)]) LFG_ANSWER_AGREE+
        k.votes (calls++[(guid,accept)]) LFG_ANSWER_DENY := by
    rw [LfgAnswerContainer.tally_eq,hagree,hdeny]
    exact Nat.mod_eq_of_lt (by omega)
  have hends : k.Ends (calls++[(guid,accept)]) ↔
      KICK_VOTES_NEEDED group.isLFRGroup ≤ k.votes (calls++[(guid,accept)]) LFG_ANSWER_AGREE ∨
        KICK_VOTES_NEEDED group.isLFRGroup ≤ k.votes (calls++[(guid,accept)]) LFG_ANSWER_DENY := by
    rw [← hneeded]
    rfl
  have hlfr : (groups (GUID_LOPART k.gguid)).any Group.isLFRGroup=group.isLFRGroup := by
    rw [hgroup]
    rfl
  have hvote : votes.get guid=some LFG_ANSWER_PENDING := by
    rw [hget guid,if_pos hmem,hpending]
  rw [LFGMgr.UpdateBoot_pending hgguid hguid hboot hvote hset hlfr,hagreeNum,hvotesNum]
  split_ifs with hcond
  · refine law_concat hnone (fun _ => ⟨hremoved,votes',Function.update_self k.gguid _ _,hget'⟩)
      fun hyes => ?_
    rw [hends] at hyes
    omega
  · refine law_concat hnone (fun hno => ?_) fun _ => ?_
    · rw [hends] at hno
      omega
    obtain ⟨hboot',hremoved'⟩ := LFGMgr.finishBoot_eq
      (s := s.setBoot k.gguid (some ⟨k.now+LFG_TIME_BOOT,true,votes',k.victim,k.reason⟩))
      hgroup k.victim (k.votes (calls++[(guid,accept)]) LFG_ANSWER_AGREE) group.isLFRGroup now
    refine ⟨hboot',hremoved'.trans ?_⟩
    have hiff : k.votes (calls++[(guid,accept)]) LFG_ANSWER_AGREE=
        KICK_VOTES_NEEDED group.isLFRGroup ↔
        k.needed ≤ k.votes (calls++[(guid,accept)]) LFG_ANSWER_AGREE := by
      rw [hneeded]
      omega
    rw [if_congr hiff rfl rfl,← hremoved]
    rfl

/-- An answer before a side has its votes: it is taken for what the law says exactly if the
caller was asked. -/
theorem Law.UpdateBoot_going_iff (h : k.Law groups removed calls s) (accept : Bool) (now : ℤ)
    (hgguid : k.gguid≠0)
    (hgroup : groups (GUID_LOPART k.gguid)=some group)
    (hneeded : k.needed=KICK_VOTES_NEEDED group.isLFRGroup)
    (hguid : s.PlayersStore guid=k.gguid) (hnone : ∀ ps,ps <+: calls → ¬k.Ends ps) :
    k.Law groups removed (calls++[(guid,accept)]) (s.UpdateBoot groups guid accept now) ↔
      guid∈k.voters := by
  obtain ⟨hremoved,votes,hboot,hget⟩ := h.going hnone
  have hends := hnone calls (List.prefix_refl calls)
  constructor
  · intro hlaw
    by_contra hmem
    have hvotes : ∀ answer,k.votes (calls++[(guid,accept)]) answer=k.votes calls answer := by
      intro answer
      refine congrArg Finset.card (Finset.filter_congr fun other hother => ?_)
      have hne : ¬(other=guid ∧ k.vote calls guid=LFG_ANSWER_PENDING) := by
        rintro ⟨rfl,-⟩
        exact hmem hother
      rw [vote_concat,if_neg hne]
    have hends' : ¬k.Ends (calls++[(guid,accept)]) := by
      unfold Ends at hends ⊢
      rwa [hvotes,hvotes]
    obtain ⟨-,votes',hboot',hget'⟩ := hlaw.going fun ps hps => by
      rcases List.prefix_concat_iff.mp hps with rfl | hps
      · exact hends'
      · exact hnone ps hps
    rw [LFGMgr.UpdateBoot_unregistered hgguid hguid hboot ((hget guid).trans (if_neg hmem))]
      at hboot'
    have heq := (Function.update_self k.gguid _ s.BootsStore).symm.trans hboot'
    have hvotes' : votes.set guid LFG_ANSWER_DENY=votes' :=
      congrArg LfgPlayerBoot.votes (Option.some.inj heq)
    have hentry := hget' guid
    rw [if_neg hmem,← hvotes',LfgAnswerContainer.get_set,if_pos rfl] at hentry
    cases hentry
  · intro hmem
    have hvote : votes.get guid=some (k.vote calls guid) := (hget guid).trans (if_pos hmem)
    by_cases hpending : k.vote calls guid=LFG_ANSWER_PENDING
    · exact law_cast hgguid hgroup hneeded hguid hnone (h.going hnone) hmem hpending
    rw [LFGMgr.UpdateBoot_voted hguid hboot hvote hpending]
    have hsame := vote_of_voted hpending accept
    have hends' : ¬k.Ends (calls++[(guid,accept)]) := by
      unfold Ends Kick.votes at hends ⊢
      rwa [hsame]
    refine law_concat hnone (fun _ => ⟨hremoved,votes,hboot,?_⟩) fun hyes => absurd hyes hends'
    rw [hsame]
    exact hget

end Kick

namespace LFGMgr

variable (s : LFGMgr) {groups : ℕ → Option Group} {group : Group} {gguid kicker victim : ℕ}
variable {reason : String} {now : ℤ}

/-- The vote that a call of `InitBoot` starts. -/
def kick (group : Group) (gguid kicker victim : ℕ) (reason : String) (now : ℤ) : Kick :=
  ⟨gguid,(s.GroupsStore gguid).players,kicker,victim,KICK_VOTES_NEEDED group.isLFRGroup,reason,now⟩

/-- What is left of an earlier vote of the group has no vote of another player. -/
def NothingLeft (k : Kick) : Prop :=
  ∀ boot,s.BootsStore k.gguid=some boot → ∀ guid,boot.votes.get guid≠none → guid∈k.voters

/-- A call of `UpdateBoot` while the vote is going on is one of a player that was asked. -/
def Asked (k : Kick) (t : LFGMgr) : Action → Prop
  | .SetGroup _ _ => True
  | .UpdateBoot guid _ _ => t.BootsStore k.gguid≠none → guid∈k.voters

theorem get_pending (players : List ℕ) (votes : LfgAnswerContainer) (guid : ℕ) :
    (players.foldl (fun votes guid => votes.set guid LFG_ANSWER_PENDING) votes).get guid=
      if guid∈players then some LFG_ANSWER_PENDING else votes.get guid := by
  induction players generalizing votes with
  | nil => simp
  | cons player players ih =>
    rw [List.foldl_cons,ih,LfgAnswerContainer.get_set]
    by_cases hmem : guid∈players
    · simp [hmem]
    · by_cases hguid : player=guid
      · simp [hguid]
      · simp [hmem,hguid,Ne.symm hguid]

/-- The votes of a record that `InitBoot` has written. -/
theorem get_InitBoot (group : Group) (gguid kicker victim : ℕ) (reason : String) (now : ℤ) :
    ∃ votes,(s.InitBoot gguid kicker victim reason now).BootsStore gguid=
        some ⟨now+LFG_TIME_BOOT,true,votes,victim,reason⟩ ∧
      ∀ guid,votes.get guid=
        if guid∈(s.kick group gguid kicker victim reason now).voters then
          some ((s.kick group gguid kicker victim reason now).vote [] guid)
        else ((s.BootsStore gguid).getD default).votes.get guid := by
  refine ⟨_,Function.update_self gguid _ _,fun guid => ?_⟩
  have hplayers : ((s.SetVoteKick gguid true).GroupsStore gguid).players=
      (s.GroupsStore gguid).players := by
    simp [SetVoteKick,setGroupData]
  rw [LfgAnswerContainer.get_set,LfgAnswerContainer.get_set,get_pending,hplayers]
  unfold Kick.vote Kick.voters kick
  by_cases hk : guid=kicker
  · simp [hk]
  by_cases hv : guid=victim
  · simp [← hv,hk,Ne.symm hk]
  by_cases hp : guid∈(s.GroupsStore gguid).players
  · simp [hk,hv,Ne.symm hk,Ne.symm hv,hp]
  · simp [hk,hv,Ne.symm hk,Ne.symm hv,hp]
    rfl

/-- A vote starts as it is to be exactly if no other player has a vote from an earlier one. -/
theorem law_InitBoot_iff (groups : ℕ → Option Group) {k : Kick}
    (hk : s.kick group gguid kicker victim reason now=k) :
    k.Law groups s.removed [] (s.InitBoot gguid kicker victim reason now) ↔ s.NothingLeft k := by
  obtain ⟨votes,hboot,hget⟩ := s.get_InitBoot group gguid kicker victim reason now
  have hneeded : 3 ≤ k.needed := by
    rw [← hk]
    show 3 ≤ KICK_VOTES_NEEDED group.isLFRGroup
    cases group.isLFRGroup <;> decide
  have hnone : ∀ ps : List (ℕ×Bool),ps <+: [] → ¬k.Ends ps := by
    intro ps hps
    rw [List.prefix_nil.mp hps]
    exact Kick.not_ends_nil hneeded
  subst hk
  constructor
  · intro hlaw boot hold guid hvote
    by_contra hmem
    obtain ⟨-,votes',hboot',hget'⟩ := hlaw.going hnone
    have hvotes : votes=votes' :=
      congrArg LfgPlayerBoot.votes (Option.some.inj (hboot.symm.trans hboot'))
    have hentry := hget' guid
    rw [← hvotes,hget guid,if_neg hmem,if_neg hmem] at hentry
    have hold' : s.BootsStore gguid=some boot := hold
    rw [hold'] at hentry
    exact hvote hentry
  · intro hleft
    refine Kick.law_of (fun _ => ⟨rfl,votes,hboot,fun guid => ?_⟩) fun ps hps hfirst =>
      absurd hfirst.1 (hnone ps hps)
    rw [hget guid]
    by_cases hmem : guid∈(s.kick group gguid kicker victim reason now).voters
    · rw [if_pos hmem,if_pos hmem]
    rw [if_neg hmem,if_neg hmem]
    cases hold : s.BootsStore gguid with
    | none => rfl
    | some boot => exact by_contra fun hne => hmem (hleft boot hold guid hne)

/-- One action keeps the law exactly if an answer is one of a player that was asked. -/
theorem law_step_iff {k : Kick} {removed : List (ℕ×ℕ)} {calls : List (ℕ×Bool)} {a : Action}
    (h : k.Law groups removed calls s) (hgguid : k.gguid≠0)
    (hgroup : groups (GUID_LOPART k.gguid)=some group)
    (hneeded : k.needed=KICK_VOTES_NEEDED group.isLFRGroup) (hmember : ByMember k.gguid s a) :
    k.Law groups removed (calls++answers [a]) (s.step groups a) ↔ Asked k s a := by
  cases a with
  | SetGroup guid gguid =>
    refine iff_of_true ?_ trivial
    show k.Law groups removed (calls++[]) _
    rw [List.append_nil]
    exact h.SetGroup guid gguid
  | UpdateBoot guid accept now =>
    by_cases hends : ∃ ps,ps <+: calls ∧ k.Ends ps
    · obtain ⟨ps,hps,hends⟩ := hends
      obtain ⟨qs,hqs,hfirst⟩ := Kick.exists_firstEnds hends
      exact iff_of_true (h.UpdateBoot_over hmember hps hends) fun hboot =>
        absurd (h.ended qs (hqs.trans hps) hfirst).1 hboot
    · push Not at hends
      obtain ⟨-,votes,hboot,-⟩ := h.going hends
      have hthere : s.BootsStore k.gguid≠none := by
        rw [hboot]
        exact Option.some_ne_none _
      have hiff := h.UpdateBoot_going_iff accept now hgguid hgroup hneeded hmember hends
      exact hiff.trans ⟨fun hmem _ => hmem,fun hasked => hasked hthere⟩

theorem answers_concat (as : List Action) (a : Action) :
    answers (as++[a])=answers as++answers [a] :=
  List.filterMap_append

/-- A vote is, after every run of answers of members of the group while they come and go, what
the answers of the players make it that were asked, exactly if no other player has a vote from an
earlier one and no other member answers while it is going on. -/
theorem vote_kick_iff (hgguid : gguid≠0) (hgroup : groups (GUID_LOPART gguid)=some group)
    (kicker victim : ℕ) (reason : String) (now : ℤ) (as : List Action)
    (hmembers : Meets (step groups) (ByMember gguid)
      (s.InitBoot gguid kicker victim reason now) as) :
    (∀ bs,bs <+: as → (s.kick group gguid kicker victim reason now).Law groups s.removed
        (answers bs) (run (step groups) (s.InitBoot gguid kicker victim reason now) bs)) ↔
      s.NothingLeft (s.kick group gguid kicker victim reason now) ∧
        Meets (step groups) (Asked (s.kick group gguid kicker victim reason now))
          (s.InitBoot gguid kicker victim reason now) as := by
  induction as using List.reverseRecOn with
  | nil =>
    rw [← s.law_InitBoot_iff groups rfl]
    refine ⟨fun h => ⟨h [] (List.prefix_refl []),trivial⟩,fun h bs hbs => ?_⟩
    rw [List.prefix_nil.mp hbs]
    exact h.1
  | append_singleton as a ih =>
    obtain ⟨hmembers,hmember,-⟩ := meets_append.mp hmembers
    have ih := ih hmembers
    rw [meets_append,← and_assoc,← ih]
    constructor
    · intro h
      have hbefore : ∀ bs,bs <+: as → _ := fun bs hbs =>
        h bs (hbs.trans (List.prefix_append as [a]))
      refine ⟨hbefore,(law_step_iff _ (hbefore as (List.prefix_refl as)) hgguid hgroup rfl
        hmember).mp ?_,trivial⟩
      have hlast := h _ (List.prefix_refl _)
      rw [answers_concat,run_append] at hlast
      exact hlast
    · rintro ⟨h,hasked,-⟩ bs hbs
      rcases List.prefix_concat_iff.mp hbs with rfl | hbs
      · rw [answers_concat,run_append]
        exact (law_step_iff _ (h as (List.prefix_refl as)) hgguid hgroup rfl hmember).mpr hasked
      · exact h bs hbs

/-- Four players are in a group and no vote is going on. -/
def sample : LFGMgr where
  PlayersStore := fun guid => if 10 ≤ guid ∧ guid < 14 then 1 else 0
  GroupsStore := fun _ => ⟨[10,11,12,13],1,false,0⟩
  BootsStore := fun _ => none
  removed := []

/-- The group is there. -/
def sampleGroups : ℕ → Option Group := fun _ => some ⟨false⟩

/-- The two other players are for the kick. -/
def sampleKick : List Action := [.UpdateBoot 12 true 1,.UpdateBoot 13 true 2]

/-- The vote is what the answers of the two make it. -/
theorem vote_kick_sample :
    (sample.kick ⟨false⟩ 1 10 11 "" 0).Law sampleGroups [] (answers sampleKick)
      (run (step sampleGroups) (sample.InitBoot 1 10 11 "" 0) sampleKick) := by
  have hgroup : sampleGroups (GUID_LOPART 1)=some ⟨false⟩ := rfl
  refine (sample.vote_kick_iff Nat.one_ne_zero hgroup 10 11 "" 0 sampleKick
    ⟨rfl,rfl,trivial⟩).mpr ⟨?_,fun _ => by decide,fun _ => by decide,trivial⟩ sampleKick
    (List.prefix_refl sampleKick)
  intro boot hboot
  cases hboot

example : (run (step sampleGroups) (sample.InitBoot 1 10 11 "" 0) sampleKick).removed=
    [(1,11)] := by decide

/-- A player comes into the group after the vote was started and is for the kick; another player is
against it. -/
def sampleJoined : List Action :=
  [.SetGroup 14 1,.UpdateBoot 14 true 1,.UpdateBoot 12 false 2]

/-- A vote is not what the answers of the players make it that were asked: the answer of the player
that came later is a vote against the kick, which ends the vote by the next one. -/
theorem joined_player_votes :
    ¬∀ (groups : ℕ → Option Group) (s : LFGMgr) (group : Group) (gguid kicker victim : ℕ)
      (reason : String) (now : ℤ) (as : List Action),
      gguid≠0 → groups (GUID_LOPART gguid)=some group → s.BootsStore gguid=none →
      Meets (step groups) (ByMember gguid) (s.InitBoot gguid kicker victim reason now) as →
      (s.kick group gguid kicker victim reason now).Law groups s.removed (answers as)
        (run (step groups) (s.InitBoot gguid kicker victim reason now) as) := by
  intro hall
  have hlaw := hall sampleGroups sample ⟨false⟩ 1 10 11 "" 0 sampleJoined
    Nat.one_ne_zero rfl rfl ⟨trivial,rfl,rfl,trivial⟩
  have hnone : ∀ ps∈(answers sampleJoined).inits,¬(sample.kick ⟨false⟩ 1 10 11 "" 0).Ends ps := by
    decide
  obtain ⟨-,votes,hboot,-⟩ := hlaw.going fun ps hps => hnone ps ((List.mem_inits ps _).mpr hps)
  have hover : ((run (step sampleGroups) (sample.InitBoot 1 10 11 "" 0)
      sampleJoined).BootsStore 1).isNone=true := by
    decide
  have hsome := Option.isNone_iff_eq_none.mp hover
  exact Option.some_ne_none _ (hboot.symm.trans hsome)

end LFGMgr

end Projectnelth.LfgVoteKick
