import Mathlib
import Projectnelth.SoloQueueTeams

/-!
# One update of the solo queue

For each healer in turn the player list is filled with the first players that
fit. The first dps in range leaves out none of the pairs that matter: of two
partners of different classes one differs from the first dps taken. The update
then removes exactly the teams, and no healer that is left has two partners.
-/

namespace Projectnelth.SoloQueueUpdate

open SoloQueueModel SoloQueueTeams

/-- The first player in range is pushed back, or none is in range. -/
theorem pushFirst_spec (world : World) {queue : SoloQueue} {itr : Ptr} {heal : SoloQueueInfo}
    (hheal : queue.heap itr=some heal) {ptrs : List Ptr}
    (hlive : ∀ p∈ptrs,∃ info,queue.heap p=some info) (playerList : List Ptr) :
    (∃ p∈ptrs,Compatible world queue itr p ∧
      pushFirst world queue.heap heal ptrs playerList=some (playerList++[p])) ∨
    (∀ p∈ptrs,¬ Compatible world queue itr p) ∧
      pushFirst world queue.heap heal ptrs playerList=some playerList := by
  induction ptrs with
  | nil => exact Or.inr ⟨fun p hp => (by cases hp),rfl⟩
  | cons p ptrs ih =>
    obtain ⟨info,hinfo⟩ := hlive p List.mem_cons_self
    simp only [pushFirst,hinfo,Option.bind_eq_bind,Option.bind_some]
    cases hin : inRange world heal info with
    | true =>
      exact Or.inl ⟨p,List.mem_cons_self,⟨heal,info,hheal,hinfo,hin⟩,by rw [if_pos rfl]⟩
    | false =>
      simp only [Bool.false_eq_true,if_false]
      have hnot : ¬ Compatible world queue itr p := fun ⟨i,j,hi,hj,hij⟩ => by
        obtain rfl := Option.some.inj (hheal.symm.trans hi)
        obtain rfl := Option.some.inj (hinfo.symm.trans hj)
        exact absurd hij (by rw [hin]; exact Bool.false_ne_true)
      rcases ih fun q hq => hlive q (List.mem_cons_of_mem p hq) with ⟨q,hq,hcomp,he⟩|⟨hnone,he⟩
      · exact Or.inl ⟨q,List.mem_cons_of_mem p hq,hcomp,he⟩
      refine Or.inr ⟨fun q hq => ?_,he⟩
      rcases List.mem_cons.mp hq with rfl|hq
      · exact hnot
      · exact hnone q hq

/-- A player who cannot be teamed, or whose class is teamed already, is passed over. -/
theorem checkDps_pass {world : World} {heap : Ptr → Option SoloQueueInfo} {ptr : Ptr} {guid : Guid}
    {teamed : UInt8} (h : ∀ c,teamClass world guid=some c → c=teamed) (playerList : List Ptr)
    {checks : List Ptr} (hlive : ∀ p∈checks,∃ info,heap p=some info) :
    checkDps world heap ptr guid playerList teamed checks=some (playerList,teamed) := by
  induction checks with
  | nil => rfl
  | cons check checks ih =>
    obtain ⟨info,hinfo⟩ := hlive check List.mem_cons_self
    have ih := ih fun p hp => hlive p (List.mem_cons_of_mem check hp)
    simp only [checkDps,hinfo,Option.bind_eq_bind,Option.bind_some,ih]
    rw [ite_eq_right_iff]
    intro hguid
    cases hplayer : world.FindPlayer guid with
    | none => rfl
    | some player =>
      refine if_neg fun ⟨hclass,htree,hne⟩ => hne (h _ ?_)
      rw [teamClass,hplayer,Option.bind_some,if_pos ⟨hclass,htree⟩]

theorem checkDps_push {world : World} {heap : Ptr → Option SoloQueueInfo} {ptr : Ptr} {guid : Guid}
    {teamed c : UInt8} (h : teamClass world guid=some c) (hne : c≠teamed) (playerList : List Ptr)
    {check : Ptr} {checks : List Ptr} {info : SoloQueueInfo} (hinfo : heap check=some info)
    (hguid : info.playerGuid≠guid) :
    checkDps world heap ptr guid playerList teamed (check::checks)=
      some (playerList++[ptr],c) := by
  obtain ⟨player,hplayer,hif⟩ := Option.bind_eq_some_iff.mp h
  rw [Option.ite_none_right_eq_some,Option.some.injEq] at hif
  obtain ⟨⟨hclass,htree⟩,rfl⟩ := hif
  simp only [checkDps,hinfo,Option.bind_eq_bind,Option.bind_some,if_pos hguid,hplayer]
  rw [if_pos ⟨hclass,htree,hne⟩]

theorem pushDps_full (world : World) (heap : Ptr → Option SoloQueueInfo) (heal : SoloQueueInfo)
    (ptrs : List Ptr) {playerList : List Ptr} (h : playerList.length=3) (teamed : UInt8) :
    pushDps world heap heal ptrs playerList teamed=some playerList := by
  cases ptrs with
  | nil => rfl
  | cons p ptrs => rw [pushDps,if_pos h]

/-- The loop over `queuedDps` pushes back the first player in range of another
class than the one teamed. -/
theorem pushDps_spec (world : World) {queue : SoloQueue} (hq : Agree queue) {itr : Ptr}
    {heal : SoloQueueInfo} (hheal : queue.heap itr=some heal) (playerList : List Ptr)
    (hitr : itr∈members queue) (hlist : ∀ p∈playerList,p∈members queue)
    {rest : List Ptr} (hhead : playerList=itr::rest) (hlen : playerList.length < 3) (teamed : UInt8)
    {ptrs : List Ptr} (hptrs : ∀ p∈ptrs,p∈members queue ∧ p≠itr) :
    (∃ before p after c,ptrs=before++p::after ∧ Compatible world queue itr p ∧
      classOf world queue p=some c ∧ c≠teamed ∧
      (∀ q∈before,Compatible world queue itr q → ∀ d,classOf world queue q=some d → d=teamed) ∧
      pushDps world queue.heap heal ptrs playerList teamed=
        pushDps world queue.heap heal after (playerList++[p]) c) ∨
    (∀ p∈ptrs,Compatible world queue itr p → ∀ c,classOf world queue p=some c → c=teamed) ∧
      pushDps world queue.heap heal ptrs playerList teamed=some playerList := by
  induction ptrs with
  | nil => exact Or.inr ⟨fun p hp => (by cases hp),rfl⟩
  | cons p ptrs ih =>
    obtain ⟨hp,hne⟩ := hptrs p List.mem_cons_self
    obtain ⟨info,hinfo,-⟩ := hq.member hp
    have hclassOf : classOf world queue p=teamClass world info.playerGuid := by
      rw [classOf,hinfo,Option.bind_some]
    have hcompat : Compatible world queue itr p ↔ inRange world heal info := by
      refine ⟨fun ⟨i,j,hi,hj,hij⟩ => ?_,fun h => ⟨heal,info,hheal,hinfo,h⟩⟩
      rw [Option.some.inj (hheal.symm.trans hi),Option.some.inj (hinfo.symm.trans hj)]
      exact hij
    have hlive : ∀ q∈playerList,∃ i,queue.heap q=some i := fun q hmem => by
      obtain ⟨i,hi,-⟩ := hq.member (hlist q hmem)
      exact ⟨i,hi⟩
    have hrest : ∀ q∈ptrs,q∈members queue ∧ q≠itr := fun q hmem =>
      hptrs q (List.mem_cons_of_mem p hmem)
    -- passing over `p` leaves the rest of the loop
    have hpass : (Compatible world queue itr p → ∀ c,classOf world queue p=some c → c=teamed) →
        pushDps world queue.heap heal (p::ptrs) playerList teamed=
          pushDps world queue.heap heal ptrs playerList teamed := fun h => by
      simp only [pushDps,if_neg (Nat.ne_of_lt hlen),hinfo,Option.bind_eq_bind,Option.bind_some]
      split
      · rename_i hin
        rw [checkDps_pass (fun c hc => h (hcompat.mpr hin) c (hclassOf.trans hc)) _ hlive]
        rfl
      · rfl
    by_cases hfit : Compatible world queue itr p → ∀ c,classOf world queue p=some c → c=teamed
    · rw [hpass hfit]
      rcases ih hrest with ⟨before,q,after,c,rfl,hcq,hclass,hnc,hbefore,he⟩|⟨hnone,he⟩
      · refine Or.inl ⟨p::before,q,after,c,rfl,hcq,hclass,hnc,fun r hr => ?_,he⟩
        rcases List.mem_cons.mp hr with rfl|hr
        · exact hfit
        · exact hbefore r hr
      · refine Or.inr ⟨fun r hr => ?_,he⟩
        rcases List.mem_cons.mp hr with rfl|hr
        · exact hfit
        · exact hnone r hr
    · simp only [not_forall] at hfit
      obtain ⟨hcomp,c,hclass,hnc⟩ := hfit
      refine Or.inl ⟨[],p,ptrs,c,rfl,hcomp,hclass,hnc,fun q hmem => (by cases hmem),?_⟩
      have hguid : heal.playerGuid≠info.playerGuid :=
        (hq.guid_iff hitr hp hheal hinfo).not.mpr (Ne.symm hne)
      simp only [pushDps,if_neg (Nat.ne_of_lt hlen),hinfo,Option.bind_eq_bind,Option.bind_some,
        if_pos (hcompat.mp hcomp)]
      rw [hhead,checkDps_push (hclassOf.symm.trans hclass) hnc _ hheal hguid]
      rfl

theorem classOf_ne_zero {world : World} {queue : SoloQueue} {ptr : Ptr} {c : UInt8}
    (h : classOf world queue ptr=some c) : c≠0 := by
  obtain ⟨info,-,hteam⟩ := Option.bind_eq_some_iff.mp h
  obtain ⟨player,-,hif⟩ := Option.bind_eq_some_iff.mp hteam
  rw [Option.ite_none_right_eq_some,Option.some.injEq] at hif
  exact hif.2 ▸ hif.1.1

theorem makePlayerList_spec (world : World) {queue : SoloQueue} (hq : Agree queue) {itr : Ptr}
    (hitr : itr∈queue.queuedHealers) :
    ∃ playerList,makePlayerList world queue itr=some playerList ∧
      ((∃ a b,playerList=[itr,a,b] ∧ Partners world queue itr a b) ∨
        playerList.length≠3 ∧ ∀ a b,¬ Partners world queue itr a b) := by
  have hmem : itr∈members queue := mem_members.mpr (Or.inl hitr)
  obtain ⟨heal,hheal,-⟩ := hq.member hmem
  obtain ⟨-,-,-,hnd,hhealers,hmelees,-⟩ := hq.lists
  simp only [makePlayerList,hheal,Option.bind_eq_bind,Option.bind_some]
  cases hr : world.dpsRestriction with
  | true =>
    have hlive : ∀ {ptrs : List Ptr},(∀ p∈ptrs,p∈members queue) →
        ∀ p∈ptrs,∃ info,queue.heap p=some info := fun hptrs p hp => by
      obtain ⟨i,hi,-⟩ := hq.member (hptrs p hp)
      exact ⟨i,hi⟩
    have hranges := hlive fun p hp => mem_members.mpr (Or.inr (Or.inr (Or.inl hp)))
    have hmels := hlive fun p hp => mem_members.mpr (Or.inr (Or.inl hp))
    have hpartners : ∀ {a b},Partners world queue itr a b → a∈queue.queuedRanges ∧
        b∈queue.queuedMelees := fun h => by
      have := h.2.2.2
      simp only [hr,if_true] at this
      exact this
    simp only [if_true]
    rcases pushFirst_spec world hheal hranges [itr] with ⟨a,ha,hca,he⟩|⟨hnone,he⟩
    · rw [he,Option.bind_some]
      rcases pushFirst_spec world hheal hmels ([itr]++[a]) with ⟨b,hb,hcb,he'⟩|⟨hnone,he'⟩
      · refine ⟨_,he',Or.inl ⟨a,b,rfl,fun hab => ?_,hca,hcb,?_⟩⟩
        · exact (hmelees b hb).1 (hab ▸ ha)
        · rw [if_pos hr]; exact ⟨ha,hb⟩
      · exact ⟨_,he',Or.inr ⟨by simp,fun c d h => hnone d (hpartners h).2 h.2.2.1⟩⟩
    · rw [he,Option.bind_some]
      rcases pushFirst_spec world hheal hmels [itr] with ⟨b,hb,hcb,he'⟩|⟨hnone',he'⟩
      · exact ⟨_,he',Or.inr ⟨by simp,fun c d h => hnone c (hpartners h).1 h.2.1⟩⟩
      · exact ⟨_,he',Or.inr ⟨by simp,fun c d h => hnone c (hpartners h).1 h.2.1⟩⟩
  | false =>
    have hdps : ∀ p∈queue.queuedDps,p∈members queue ∧ p≠itr := fun p hp =>
      ⟨mem_members.mpr (Or.inr (Or.inr (Or.inr hp))),fun he => (hhealers itr hitr).2.2 (he ▸ hp)⟩
    have hpartners : ∀ {a b},Partners world queue itr a b →
        a∈queue.queuedDps ∧ b∈queue.queuedDps ∧
          ∃ c d,classOf world queue a=some c ∧ classOf world queue b=some d ∧ c≠d := fun h => by
      have := h.2.2.2
      simp only [hr,Bool.false_eq_true,if_false] at this
      exact this
    simp only [Bool.false_eq_true,if_false]
    rcases pushDps_spec world hq hheal [itr] hmem
      (fun p hp => List.mem_singleton.mp hp ▸ hmem) rfl (by simp) 0 hdps with
      ⟨before,a,after,c,hsplit,hca,hclass,-,hbefore,he⟩|⟨hnone,he⟩
    · have ha : a∈queue.queuedDps := by rw [hsplit]; simp
      have hafter : ∀ p∈after,p∈members queue ∧ p≠itr := fun p hp =>
        hdps p (by rw [hsplit]; simp [hp])
      rcases pushDps_spec world hq hheal ([itr]++[a]) hmem
        (fun p hp => by
          rcases List.mem_pair.mp hp with rfl|rfl
          · exact hmem
          · exact (hdps _ ha).1) rfl (by simp) c hafter with
        ⟨before',b,after',d,hsplit',hcb,hclass',hnd',-,he'⟩|⟨hnone',he'⟩
      · refine ⟨[itr,a,b],?_,Or.inl ⟨a,b,rfl,fun hab => ?_,hca,hcb,?_⟩⟩
        · rw [he,he',pushDps_full _ _ _ _ rfl]; rfl
        · rw [hab] at hclass
          exact hnd' (Option.some.inj (hclass'.symm.trans hclass))
        · simp only [hr,Bool.false_eq_true,if_false]
          exact ⟨ha,by rw [hsplit,hsplit']; simp,c,d,hclass,hclass',Ne.symm hnd'⟩
      · refine ⟨_,he.trans he',Or.inr ⟨by simp,fun p q hpq => ?_⟩⟩
        -- every player in range who can be teamed has the class of the one teamed
        have hall : ∀ p∈queue.queuedDps,Compatible world queue itr p →
            ∀ e,classOf world queue p=some e → e=c := fun p hp hcomp e hclassp => by
          rw [hsplit] at hp
          rcases List.mem_append.mp hp with hp|hp
          · exact absurd (hbefore p hp hcomp e hclassp) (classOf_ne_zero hclassp)
          · rcases List.mem_cons.mp hp with rfl|hp
            · exact Option.some.inj (hclassp.symm.trans hclass)
            · exact hnone' p hp hcomp e hclassp
        obtain ⟨hp,hq',d,e,hd,he,hde⟩ := hpartners hpq
        exact hde ((hall p hp hpq.2.1 d hd).trans (hall q hq' hpq.2.2.1 e he).symm)
    · refine ⟨_,he,Or.inr ⟨by simp,fun p q hpq => ?_⟩⟩
      obtain ⟨hp,hq',d,e,hd,he,hde⟩ := hpartners hpq
      exact hde ((hnone p hp hpq.2.1 d hd).trans (hnone q hq' hpq.2.2.1 e he).symm)

theorem removePlayers_eq {world : World} {queue : SoloQueue} (hq : Agree queue) {itr a b : Ptr}
    (hteam : Team world queue [itr,a,b]) :
    removePlayers itr [itr,a,b] queue=some (without queue [a,b]) := by
  obtain ⟨hnodup,hmem⟩ := hteam.nodup hq
  simp only [List.nodup_cons,List.mem_cons,List.not_mem_nil,or_false,not_or,not_false_iff,
    List.nodup_nil,and_true] at hnodup
  obtain ⟨⟨hia,hib⟩,hab⟩ := hnodup
  have hi : itr∈members queue := hmem itr (by simp)
  have ha : a∈members queue := hmem a (by simp)
  have hb : b∈members queue := hmem b (by simp)
  obtain ⟨heal,hheal,-⟩ := hq.member hi
  obtain ⟨infoA,hinfoA,-⟩ := hq.member ha
  obtain ⟨infoB,hinfoB,-⟩ := hq.member hb
  have hguidA : infoA.playerGuid≠heal.playerGuid :=
    (hq.guid_iff ha hi hinfoA hheal).not.mpr (Ne.symm hia)
  have hguidB : infoB.playerGuid≠heal.playerGuid :=
    (hq.guid_iff hb hi hinfoB hheal).not.mpr (Ne.symm hib)
  have hheal' : (without queue [a]).heap itr=some heal := by simp [without,hia,hheal]
  have hinfoB' : (without queue [a]).heap b=some infoB := by simp [without,Ne.symm hab,hinfoB]
  have hb' : b∈members (without queue [a]) := by
    rw [members_without]
    exact List.mem_filter.mpr ⟨hb,by simpa using Ne.symm hab⟩
  simp only [removePlayers,hheal,hinfoA,Option.bind_eq_bind,Option.bind_some,if_true,
    if_neg hguidA,RemovePlayer_eq hq ha hinfoA]
  simp only [hheal',hinfoB',Option.bind_some,if_neg hguidB,
    RemovePlayer_eq (hq.remove [a]) hb' hinfoB',without_append,List.singleton_append]

/-- A healer is teamed and the team removed, or the healer has no two partners
and nothing happens. -/
theorem updateHealer_spec {world : World} (ht : world.arenaTemplate=true)
    (hb : world.bracketEntry=true) {queue : SoloQueue} (hq : Agree queue) {itr : Ptr}
    (hitr : itr∈queue.queuedHealers) :
    (∃ team,updateHealer world queue itr=some (without queue team,some team) ∧
      Team world queue team ∧ itr∈team) ∨
    updateHealer world queue itr=some (queue,none) ∧ ∀ a b,¬ Partners world queue itr a b := by
  obtain ⟨playerList,hlist,⟨a,b,rfl,hpartners⟩|⟨hlen,hnone⟩⟩ := makePlayerList_spec world hq hitr
  · have hteam : Team world queue [itr,a,b] := ⟨itr,a,b,rfl,hitr,hpartners⟩
    obtain ⟨hnodup,hmem⟩ := hteam.nodup hq
    have hmapM : ∃ infos,AddSoloQueueGroup queue.heap [itr,a,b]=some infos := by
      obtain ⟨i,hi,-⟩ := hq.member (hmem itr (by simp))
      obtain ⟨j,hj,-⟩ := hq.member (hmem a (by simp))
      obtain ⟨k,hk,-⟩ := hq.member (hmem b (by simp))
      exact ⟨[i,j,k],by simp [AddSoloQueueGroup,hi,hj,hk]⟩
    obtain ⟨infos,hinfos⟩ := hmapM
    have hkeep : itr∈(without queue [a,b]).queuedHealers :=
      List.mem_filter.mpr ⟨hitr,by simpa using (List.nodup_cons.mp hnodup).1⟩
    obtain ⟨heal,hheal,-⟩ := (hq.remove [a,b]).member (mem_members.mpr (Or.inl hkeep))
    have herase := (hq.remove [a,b]).eraseHealer hkeep hheal
    refine Or.inl ⟨[itr,a,b],?_,hteam,by simp⟩
    simp only [updateHealer,hlist,Option.bind_eq_bind,Option.bind_some,List.length_cons,
      List.length_nil,ht,hb,and_self,if_true,hinfos,removePlayers_eq hq hteam,hheal,
      SoloQueue.delete,herase,Option.pure_def]
    rw [without_append,@without_congr queue _ [itr,a,b] fun p => by
      simp only [List.mem_append,List.mem_cons,List.not_mem_nil,or_false]
      tauto]
  · refine Or.inr ⟨?_,hnone⟩
    simp only [updateHealer,hlist,Option.bind_eq_bind,Option.bind_some,hlen,false_and,if_false,
      Option.pure_def]

/-- The loop over the healers removes exactly its teams, and a healer it has
passed and not teamed has no two partners in what is left. -/
theorem updateHealers_spec {world : World} (ht : world.arenaTemplate=true)
    (hb : world.bracketEntry=true) {queue : SoloQueue} (hq : Agree queue) {itrs : List Ptr}
    (hnodup : itrs.Nodup) (hitrs : ∀ p∈itrs,p∈queue.queuedHealers) :
    ∃ teams : List (List Ptr),
      updateHealers world itrs queue=some (without queue teams.flatten,teams) ∧
      teams.flatten.Nodup ∧ (∀ team∈teams,Team world queue team) ∧
      ∀ p∈itrs,p∉teams.flatten →
        ∀ a b,¬ Partners world (without queue teams.flatten) p a b := by
  induction itrs generalizing queue with
  | nil =>
    exact ⟨[],by simp only [updateHealers,List.flatten_nil,without_nil],List.nodup_nil,
      fun team h => (by cases h),fun p h => (by cases h)⟩
  | cons itr itrs ih =>
    obtain ⟨hnot,hnodup⟩ := List.nodup_cons.mp hnodup
    have hitr := hitrs itr List.mem_cons_self
    have hrest : ∀ p∈itrs,p∈queue.queuedHealers := fun p hp =>
      hitrs p (List.mem_cons_of_mem itr hp)
    simp only [updateHealers,if_pos hitr]
    rcases updateHealer_spec ht hb hq hitr with ⟨team,hstep,hteam,hin⟩|⟨hstep,hnone⟩
    · obtain ⟨hteamNodup,-⟩ := hteam.nodup hq
      -- the partners are no healers, so the other healers are still queued
      have hstill : ∀ p∈itrs,p∈(without queue team).queuedHealers := by
        obtain ⟨heal,a,b,rfl,hheal,hpartners⟩ := hteam
        have hdisjoint := (List.nodup_append.mp hq.nodup_members).2.2
        have hpm := hpartners.mem
        intro p hp
        refine List.mem_filter.mpr ⟨hrest p hp,decide_eq_true fun hmem => ?_⟩
        have hitr' : itr=heal := by
          rcases List.mem_cons.mp hin with h|h
          · exact h
          · exact absurd rfl (hdisjoint itr hitr itr (hpm itr h))
        rcases List.mem_cons.mp hmem with h|h
        · exact hnot (hitr' ▸ h ▸ hp)
        · exact hdisjoint p (hrest p hp) p (hpm p h) rfl
      obtain ⟨teams,hloop,hflat,hteams,hmax⟩ := ih (hq.remove team) hnodup hstill
      refine ⟨team::teams,?_,?_,?_,?_⟩
      · simp only [hstep,Option.bind_eq_bind,Option.bind_some,hloop,Option.pure_def,
          without_append,Option.toList_some,List.singleton_append,List.flatten_cons]
      · rw [List.flatten_cons,List.nodup_append]
        refine ⟨hteamNodup,hflat,fun p hp q hmem hpq => ?_⟩
        subst hpq
        obtain ⟨other,hother,hpo⟩ := List.mem_flatten.mp hmem
        have := ((hteams other hother).nodup (hq.remove team)).2 p hpo
        rw [members_without] at this
        exact of_decide_eq_true (List.mem_filter.mp this).2 hp
      · intro other hother
        rcases List.mem_cons.mp hother with rfl|hother
        · exact hteam
        · exact (hteams other hother).of_without
      · intro p hp hfree
        rw [List.flatten_cons,List.mem_append,not_or] at hfree
        rcases List.mem_cons.mp hp with rfl|hp
        · exact absurd hin hfree.1
        · rw [List.flatten_cons,← without_append]
          exact hmax p hp hfree.2
    · obtain ⟨teams,hloop,hflat,hteams,hmax⟩ := ih hq hnodup hrest
      refine ⟨teams,?_,hflat,hteams,?_⟩
      · simp only [hstep,Option.bind_eq_bind,Option.bind_some,hloop,Option.pure_def,
          Option.toList_none,List.nil_append]
      intro p hp hfree a b
      rcases List.mem_cons.mp hp with rfl|hp
      · exact fun hpartners => hnone a b hpartners.of_without
      · exact hmax p hp hfree a b

/-- One effective update removes exactly the members of the teams it forms,
after the range updates; every team is a healer with two partners; no healer
left has two partners left; and the containers stay in agreement. -/
theorem update_teams {world : World} (ht : world.arenaTemplate=true)
    (hb : world.bracketEntry=true) {queue : SoloQueue} (hq : Agree queue)
    (heffective : 1000 ≤ getMSTimeDiff queue.lastUpdateTime world.now) :
    ∃ teams : List (List Ptr),
      Update world queue=some (without (ranged world queue) teams.flatten,teams) ∧
      teams.flatten.Nodup ∧ (∀ team∈teams,Team world (ranged world queue) team) ∧
      (∀ heal∈(without (ranged world queue) teams.flatten).queuedHealers,∀ a b,
        ¬ Partners world (without (ranged world queue) teams.flatten) heal a b) ∧
      Agree (without (ranged world queue) teams.flatten) := by
  have hlive : ∀ entry∈queue.allPlayersInQueue,∃ info,queue.heap entry.2=some info :=
    fun entry hentry => by
      obtain ⟨info,hinfo,-⟩ := hq.live entry hentry
      exact ⟨info,hinfo⟩
  have hagree := hq.rangeUpdate world
  obtain ⟨teams,hloop,hflat,hteams,hmax⟩ :=
    updateHealers_spec ht hb hagree hagree.lists.1 fun p hp => hp
  refine ⟨teams,?_,hflat,hteams,?_,hagree.remove _⟩
  · rw [Update,if_neg (UInt32.not_lt.mpr heffective),updateMmrRanges_eq world hq.nodup hlive]
    exact hloop
  · intro heal hheal
    obtain ⟨hmem,hfree⟩ := List.mem_filter.mp hheal
    exact hmax heal hmem (of_decide_eq_true hfree)

/-- Three players of MMR 1500: a healer and two dps. -/
def threeQueued : SoloQueue where
  heap := fun ptr => [10,11,12][ptr]?.map fun guid => ⟨guid,1500,1500,1,0,0,0,469⟩
  queuedHealers := [0]
  queuedMelees := []
  queuedRanges := []
  queuedDps := [1,2]
  allPlayersInQueue := [(10,0),(11,1),(12,2)]
  lastUpdateTime := 0

/-- A world with a warrior and a mage, whose primary talent tree is a parameter. -/
def twoClasses (mageTree : UInt32) : World where
  maxRatingDifference := 150
  dpsRestriction := false
  FindPlayer := fun guid =>
    if guid=11 then some ⟨1,746⟩ else if guid=12 then some ⟨8,mageTree⟩ else none
  arenaTemplate := true
  bracketEntry := true
  now := 2000
  mmrTimes := fun _ => (2000,2000)

theorem agree_threeQueued : Agree threeQueued where
  live := fun entry hentry => by
    simp only [threeQueued,List.mem_cons,List.not_mem_nil,or_false] at hentry
    rcases hentry with rfl|rfl|rfl <;> exact ⟨_,rfl,rfl⟩
  guids := by decide
  perm := List.Perm.refl _

/-- With talents the two dps and the healer are a team. -/
theorem update_teams_mage :
    (∃ teams : List (List Ptr),
      Update (twoClasses 799) threeQueued=
        some (without (ranged (twoClasses 799) threeQueued) teams.flatten,teams) ∧
      teams.flatten.Nodup ∧
      (∀ team∈teams,Team (twoClasses 799) (ranged (twoClasses 799) threeQueued) team) ∧
      (∀ heal∈(without (ranged (twoClasses 799) threeQueued) teams.flatten).queuedHealers,∀ a b,
        ¬ Partners (twoClasses 799)
          (without (ranged (twoClasses 799) threeQueued) teams.flatten) heal a b) ∧
      Agree (without (ranged (twoClasses 799) threeQueued) teams.flatten)) ∧
    (Update (twoClasses 799) threeQueued).map Prod.snd=some [[0,1,2]] :=
  ⟨update_teams (by decide) (by decide) agree_threeQueued (by decide),by decide⟩

/-- Without a primary talent tree the mage is passed over: a healer and two
players in range, of different classes, stay in the queue. -/
theorem mage_passed_over :
    Agree threeQueued ∧ 1000 ≤ getMSTimeDiff threeQueued.lastUpdateTime (twoClasses 0).now ∧
    ∃ queue,Update (twoClasses 0) threeQueued=some (queue,[]) ∧
      queue.queuedHealers=[0] ∧ queue.queuedDps=[1,2] ∧
      Compatible (twoClasses 0) queue 0 1 ∧ Compatible (twoClasses 0) queue 0 2 ∧
      ∃ warrior mage,(twoClasses 0).FindPlayer 11=some warrior ∧
        (twoClasses 0).FindPlayer 12=some mage ∧ warrior.playerClass≠mage.playerClass := by
  refine ⟨agree_threeQueued,by decide,_,rfl,rfl,rfl,?_,?_,_,_,rfl,rfl,by decide⟩
  · exact ⟨_,_,rfl,rfl,by decide⟩
  · exact ⟨_,_,rfl,rfl,by decide⟩

end Projectnelth.SoloQueueUpdate
