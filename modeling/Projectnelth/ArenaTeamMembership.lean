import Mathlib
import Projectnelth.ArenaTeamFields
import Projectnelth.RunInvariant

/-!
# Membership of arena teams

The teams and the records of the players are the two sides of one relation. Creating, joining,
leaving and disbanding change both alike, as long as who leaves is a member of the team he names
and no team is made for a slot behind the arrays.
-/

namespace Projectnelth.ArenaTeamModel

open KeyedList RunInvariant

/-- The members of a team. -/
def ArenaTeam.guids (team : ArenaTeam) : List ℕ := team.Members.map ArenaTeamMember.Guid

/-- A team as a record that lists players. -/
def sides : TwoSided.Sides ℕ (Fin 3) ℕ ArenaTeam where
  name := ArenaTeam.TeamId
  place team := (index team.GetSlot).getD 0
  owners := ArenaTeam.guids

/-- A recorded team; zero is none. -/
def entry (t : ℕ) : Option ℕ := if t=0 then none else some t

/-- The teams that the character infos name. -/
def World.table (w : World) : ℕ → Fin 3 → Option ℕ := fun guid slot => entry (w.charInfos guid slot)

/-- What is to hold of the teams and the players. -/
structure Orderly (r : Realm) (w : World) : Prop where
  types : ∀ team∈w.ArenaTeamStore, team.teamType∈[2,3,5,10]
  captain : ∀ team∈w.ArenaTeamStore, team.CaptainGuid∈team.guids
  /-- Nobody is listed twice. -/
  distinct : ∀ team∈w.ArenaTeamStore, team.guids.Nodup
  /-- There are at most twice as many members as the type says. -/
  bounded : ∀ team∈w.ArenaTeamStore, team.Members.length ≤ team.teamType*2
  /-- An online player has the team recorded that lists him. -/
  recorded : ∀ guid, r.online guid → ∀ (slot : Fin 3) (t : ℕ), t≠0 →
    ((w.players guid).GetArenaTeamId slot=t ↔
      ∃ team∈w.ArenaTeamStore, team.TeamId=t ∧ team.GetSlot=slot ∧ guid∈team.guids)
  /-- So does the character info of each player. -/
  cached : ∀ guid (slot : Fin 3) (t : ℕ), t≠0 →
    (w.charInfos guid slot=t ↔
      ∃ team∈w.ArenaTeamStore, team.TeamId=t ∧ team.GetSlot=slot ∧ guid∈team.guids)

/-- What holds of a team of the store. -/
structure TeamOk (next : ℕ) (team : ArenaTeam) : Prop where
  id : team.TeamId≠0 ∧ team.TeamId < next
  slot : ∃ i, index team.GetSlot=some i
  /-- The captain is a member. -/
  captain : team.CaptainGuid∈team.guids
  /-- There are at most twice as many members as the type says. -/
  bounded : team.Members.length ≤ team.teamType*2

/-- The fields of the online players are sound and agree with the character infos. -/
def Mirror (r : Realm) (w : World) : Prop :=
  ∀ guid, r.online guid → (w.players guid).Ok ∧
    ∀ slot, (w.players guid).GetArenaTeamId slot=w.charInfos guid slot

/-- The teams and the players agree. -/
structure Linked (r : Realm) (w : World) : Prop where
  agree : TwoSided.Agree sides w.ArenaTeamStore w.table
  /-- The fields agree with the character infos. -/
  mirror : Mirror r w

/-- What holds between two packets, and of a world that was loaded. -/
structure Consistent (r : Realm) (w : World) : Prop extends Linked r w where
  teams : ∀ team∈w.ArenaTeamStore, TeamOk w.NextArenaTeamId team
  next : w.NextArenaTeamId≠0

/-- The records that name neither nothing nor the team stay. -/
def Keeps (r : Realm) (named : ℕ) (w w' : World) : Prop :=
  ∀ guid (slot : Fin 3),
    (w.charInfos guid slot≠0 → w.charInfos guid slot≠named →
      w'.charInfos guid slot=w.charInfos guid slot) ∧
    (r.online guid → (w.players guid).GetArenaTeamId slot≠0 →
      (w.players guid).GetArenaTeamId slot≠named →
      (w'.players guid).GetArenaTeamId slot=(w.players guid).GetArenaTeamId slot)

/-- The character infos keep what names neither nothing nor the team. -/
def InfosKeep (named : ℕ) (w w' : World) : Prop :=
  ∀ guid (slot : Fin 3), w.charInfos guid slot≠0 → w.charInfos guid slot≠named →
    w'.charInfos guid slot=w.charInfos guid slot

/-- The team that a packet names. -/
def named {r : Realm} (w : World) (a : r.Online×Packet×Answers r) : ℕ :=
  match a.2.1 with
  | .create _ _ => w.NextArenaTeamId
  | .invite arenaTeamId _ => arenaTeamId
  | .accept => (w.players a.1.1).arenaTeamIdInvited
  | .decline => 0
  | .leave arenaTeamId => arenaTeamId
  | .disband arenaTeamId => arenaTeamId
  | .remove arenaTeamId _ => arenaTeamId

/-- A team is made for a slot that the arrays have, and who leaves a team is a member, where he is
not refused. -/
def Fits {r : Realm} (w : World) (a : r.Online×Packet×Answers r) : Prop :=
  match a.2.1 with
  | .create slot _ => slot%256 < 3
  | .leave arenaTeamId => ∀ team∈w.GetArenaTeamById arenaTeamId,
      a.2.2.inArena a.1.1 ∨ a.2.2.queued a.1.1 ∨ a.1.1∈team.guids
  | _ => True

instance {r : Realm} (w : World) (a : r.Online×Packet×Answers r) : Decidable (Fits w a) := by
  unfold Fits
  split <;> infer_instance

theorem index_eq_some {slot : ℕ} {i : Fin 3} (h : index slot=some i) : slot=i := by
  unfold index at h
  split_ifs at h
  rw [← Option.some.inj h]

theorem type_of_index {type : ℕ} {i : Fin 3} (h : index (GetSlotByType type)=some i) :
    type∈[2,3,5] := by
  unfold GetSlotByType at h
  split at h
  · decide
  · decide
  · decide
  · cases h
  · cases h

theorem GetSlotByType_GetTypeBySlot {slot : ℕ} {i : Fin 3} (h : index slot=some i) :
    GetSlotByType (GetTypeBySlot slot)=slot := by
  have hslot := index_eq_some h
  have hi := (by decide : ∀ d : Fin 3, (d : ℕ)=0 ∨ (d : ℕ)=1 ∨ (d : ℕ)=2) i
  rw [hslot]
  rcases hi with h0 | h0 | h0 <;> rw [h0] <;> rfl

namespace World

variable {r : Realm} {w w' : World} {team : ArenaTeam} {slot : Fin 3} {guid t : ℕ}

theorem table_eq_some : w.table guid slot=some t ↔ w.charInfos guid slot=t ∧ t≠0 := by
  unfold table entry
  by_cases h0 : w.charInfos guid slot=0
  · rw [if_pos h0]
    refine ⟨(fun h => by cases h),fun h => ?_⟩
    rw [h0] at h
    exact absurd h.1.symm h.2
  · rw [if_neg h0,Option.some.injEq]
    exact ⟨fun h => ⟨h,fun ht => h0 (h.trans ht)⟩,And.left⟩

theorem table_eq_none (h : w.charInfos guid slot=0) : w.table guid slot=none := by
  unfold table
  rw [h]
  rfl

theorem table_UpdateCharArenaTeam :
    (w.UpdateCharArenaTeam guid t slot).table=TwoSided.write w.table guid slot (entry t) := by
  funext guid' slot'
  unfold table UpdateCharArenaTeam TwoSided.write
  dsimp only
  by_cases he : guid'=guid ∧ slot'=slot
  · rw [if_pos he,if_pos he]
  · rw [if_neg he,if_neg he]

theorem charInfos_self : (w.UpdateCharArenaTeam guid t slot).charInfos guid slot=t :=
  if_pos ⟨rfl,rfl⟩

theorem charInfos_of_ne {other : ℕ} {slot' : Fin 3} (h : ¬(other=guid ∧ slot'=slot)) :
    (w.UpdateCharArenaTeam guid t slot).charInfos other slot'=w.charInfos other slot' :=
  if_neg h

end World

variable {r : Realm} {w w' w'' : World} {team : ArenaTeam} {slot : Fin 3} {guid t : ℕ}

theorem InfosKeep.keeps (h : InfosKeep t w w') (hw : Mirror r w) (hw' : Mirror r w') :
    Keeps r t w w' := by
  refine fun guid slot => ⟨h guid slot,fun hon hzero hne => ?_⟩
  rw [(hw guid hon).2] at hzero hne
  rw [(hw guid hon).2,(hw' guid hon).2,h guid slot hzero hne]

theorem InfosKeep.refl : InfosKeep t w w := fun _ _ _ _ => rfl

theorem InfosKeep.trans (h : InfosKeep t w w') (h' : InfosKeep t w' w'') : InfosKeep t w w'' := by
  intro guid slot hzero hne
  have heq := h guid slot hzero hne
  rw [h' guid slot (heq ▸ hzero) (heq ▸ hne),heq]

/-- A character info is written that names nothing or the team. -/
theorem InfosKeep.update {t' : ℕ} (h : w.charInfos guid slot=0 ∨ w.charInfos guid slot=t) :
    InfosKeep t w (w.UpdateCharArenaTeam guid t' slot) := by
  intro other slot' hzero hne
  refine World.charInfos_of_ne fun he => ?_
  rw [he.1,he.2] at hzero hne
  exact h.elim hzero hne

theorem Mirror.write (h : Mirror r w) {f : Player → Player}
    (hf : r.online guid=true → (w.players guid).Ok → (f (w.players guid)).Ok ∧
      ∀ other, (f (w.players guid)).GetArenaTeamId other=
        if other=slot then t else (w.players guid).GetArenaTeamId other)
    (hon : r.online guid=true → w'.players=Function.update w.players guid (f (w.players guid)))
    (hoff : r.online guid=false → w'.players=w.players)
    (hinfos : w'.charInfos=(w.UpdateCharArenaTeam guid t slot).charInfos) : Mirror r w' := by
  intro other hother
  obtain ⟨hok,hfields⟩ := h other hother
  by_cases heq : other=guid
  · obtain ⟨hok',hfields'⟩ := hf (heq ▸ hother) (heq ▸ hok)
    rw [hon (heq ▸ hother),hinfos,heq,Function.update_self]
    refine ⟨hok',fun slot' => ?_⟩
    rw [hfields']
    by_cases hslot : slot'=slot
    · rw [if_pos hslot,hslot]
      exact World.charInfos_self.symm
    · rw [if_neg hslot,World.charInfos_of_ne fun he => hslot he.2,← heq]
      exact hfields slot'
  · have hplayer : w'.players other=w.players other := by
      cases hguid : r.online guid with
      | true => rw [hon hguid,Function.update_of_ne heq]
      | false => rw [hoff hguid]
    rw [hplayer,hinfos]
    refine ⟨hok,fun slot' => ?_⟩
    rw [World.charInfos_of_ne fun he => heq he.1]
    exact hfields slot'

theorem Mirror.invited (h : Mirror r w) (guid arenaTeamId : ℕ) :
    Mirror r (w.setPlayer guid fun p => p.SetArenaTeamIdInvited arenaTeamId) := by
  intro other hother
  obtain ⟨hok,hfields⟩ := h other hother
  by_cases heq : other=guid
  · unfold World.setPlayer
    dsimp only
    rw [heq,Function.update_self]
    exact ⟨(heq ▸ hok).invited arenaTeamId,heq ▸ hfields⟩
  · unfold World.setPlayer
    dsimp only
    rw [Function.update_of_ne heq]
    exact ⟨hok,hfields⟩

/-- What `AddMember` gives, where it does. -/
structure Added (r : Realm) (w : World) (slot : Fin 3) (team : ArenaTeam) (guid : ℕ)
    (w' : World) (team' : ArenaTeam) : Prop where
  room : team.Members.length < team.teamType*2
  /-- The player had no team in the slot. -/
  free : w.charInfos guid slot=0
  last : team'={ team with Members := team.Members++[⟨guid,r.nameOf guid⟩] }
  /-- The store is as before. -/
  store : w'.ArenaTeamStore=w.ArenaTeamStore
  next : w'.NextArenaTeamId=w.NextArenaTeamId
  /-- The info of the player was written. -/
  infos : w'.charInfos=(w.UpdateCharArenaTeam guid team.TeamId slot).charInfos
  /-- The fields agree. -/
  mirror : Mirror r w'

theorem Mirror.addMember (h : Mirror r w) {team' : ArenaTeam} (hid : team.TeamId≠0)
    (htype : team.teamType≠0) (hadd : w.AddMember r slot team guid=some (w',team')) :
    Added r w slot team guid w' team' := by
  unfold World.AddMember at hadd
  split_ifs at hadd with hroom hfree hon
  all_goals
    obtain ⟨rfl,rfl⟩ := Prod.mk.inj (Option.some.inj hadd)
    have hzero : w.charInfos guid slot=0 := by
      simp only [Bool.or_eq_true,decide_eq_true_eq,not_or,not_not] at hfree
      exact hfree.2
    refine ⟨Nat.lt_of_not_le hroom,hzero,rfl,rfl,rfl,rfl,?_⟩
    refine h.write (f := World.inform { team with
      Members := team.Members++[⟨guid,r.nameOf guid⟩] } slot guid) (fun hguid hok => ?_)
      (fun hguid => ?_) (fun hguid => ?_) rfl
  · obtain ⟨hok',hfields⟩ := hok.setInArenaTeam (((h guid hguid).2 slot).trans hzero) hid htype
    have hinvited := hok'.invited 0
    unfold World.inform
    dsimp only
    split_ifs
    · exact ⟨(hinvited.setMember 1).1,fun other =>
        ((hinvited.setMember 1).2 other).trans (hfields other)⟩
    · exact ⟨hinvited,hfields⟩
  · rfl
  · cases hon.symm.trans hguid
  · exact absurd hguid hon
  · exact absurd hguid hon
  · rfl

theorem guids_eraseMember (guid : ℕ) (members : List ArenaTeamMember) :
    (eraseMember guid members).map ArenaTeamMember.Guid=
      (members.map ArenaTeamMember.Guid).erase guid := by
  induction members with
  | nil => rfl
  | cons member members ih =>
    unfold eraseMember
    rw [List.map_cons,List.erase_cons]
    by_cases h : member.Guid=guid
    · rw [if_pos h,if_pos (beq_iff_eq.mpr h)]
    · rw [if_neg h,if_neg (fun hb => h (beq_iff_eq.mp hb)),List.map_cons,ih]

/-- What `DelMember` does to a team of the store and one of its members. -/
structure Deleted (r : Realm) (w : World) (team : ArenaTeam) (guid : ℕ)
    (w' : World) (team' : ArenaTeam) : Prop where
  out : team'={ team with Members := eraseMember guid team.Members }
  store : w'.ArenaTeamStore=replace ArenaTeam.TeamId team' w.ArenaTeamStore
  next : w'.NextArenaTeamId=w.NextArenaTeamId
  /-- The teams and the players agree. -/
  linked : Linked r w'
  keeps : InfosKeep team.TeamId w w'

theorem Linked.delMember (h : Linked r w) (hteam : w.GetArenaTeamById t=some team)
    (hslot : index team.GetSlot=some slot) (hguid : guid∈team.guids) :
    Deleted r w team guid (w.DelMember r slot team guid).1 (w.DelMember r slot team guid).2 := by
  have hmem : team∈w.ArenaTeamStore := mem_of_lookup hteam
  have hplace : sides.place team=slot := by
    change (index team.GetSlot).getD 0=slot
    rw [hslot]
    rfl
  have hentry : w.table guid slot=some team.TeamId := by
    rw [← hplace]
    exact h.agree.listed team hmem guid hguid
  have hinfo := (World.table_eq_some.mp hentry).1
  have hinfos : (w.DelMember r slot team guid).1.charInfos=
      (w.UpdateCharArenaTeam guid 0 slot).charInfos := by
    unfold World.DelMember
    dsimp only
    split_ifs <;> rfl
  have hstore : (w.DelMember r slot team guid).1.ArenaTeamStore=
      replace ArenaTeam.TeamId (w.DelMember r slot team guid).2 w.ArenaTeamStore := by
    unfold World.DelMember
    dsimp only
    split_ifs <;> rfl
  refine ⟨rfl,hstore,?_,⟨?_,?_⟩,?_⟩
  · unfold World.DelMember
    dsimp only
    split_ifs <;> rfl
  · have htable : (w.DelMember r slot team guid).1.table=TwoSided.write w.table guid slot none := by
      refine Eq.trans ?_ (World.table_UpdateCharArenaTeam (w := w) (t := 0))
      unfold World.table
      rw [hinfos]
    rw [htable,hstore]
    refine TwoSided.Agree.drop (v := sides) (b := team) ?_ h.agree hentry rfl ?_
    · change lookup ArenaTeam.TeamId team.TeamId w.ArenaTeamStore=some team
      rw [key_of_lookup hteam]
      exact hteam
    · change (eraseMember guid team.Members).map ArenaTeamMember.Guid=_
      have honce : (team.Members.map ArenaTeamMember.Guid).Nodup := h.agree.once team hmem
      rw [guids_eraseMember,honce.erase_eq_filter]
      refine List.filter_congr fun other _ => ?_
      exact Bool.eq_iff_iff.mpr (by rw [bne_iff_ne,decide_eq_true_eq])
  · refine h.mirror.write (f := fun player => player.DeleteArenaTeam slot)
      (fun _ hok => hok.deleteArenaTeam) (fun hon => ?_) (fun hoff => ?_) hinfos
    · unfold World.DelMember
      dsimp only
      rw [if_pos hon]
      rfl
    · unfold World.DelMember
      dsimp only
      rw [if_neg (by rw [hoff]; exact Bool.false_ne_true)]
      rfl
  · intro other slot' hzero hne
    rw [hinfos]
    exact InfosKeep.update (Or.inr hinfo) other slot' hzero hne

/-- After the loop of `Disband` the team has no members. -/
theorem Linked.disbandLoop (n : ℕ) : ∀ {w : World} {team : ArenaTeam}, Linked r w →
    w.GetArenaTeamById team.TeamId=some team → index team.GetSlot=some slot →
    team.Members.length ≤ n →
    ∃ w' team', World.disbandLoop r slot n (w,team)=(w',team') ∧ Linked r w' ∧
      w'.GetArenaTeamById team.TeamId=some team' ∧ team'.Members=[] ∧
      w'.NextArenaTeamId=w.NextArenaTeamId ∧
      remove ArenaTeam.TeamId team.TeamId w'.ArenaTeamStore=
        remove ArenaTeam.TeamId team.TeamId w.ArenaTeamStore ∧
      InfosKeep team.TeamId w w' := by
  induction n with
  | zero =>
    intro w team h hteam _ hlength
    exact ⟨w,team,rfl,h,hteam,List.length_eq_zero_iff.mp (Nat.le_zero.mp hlength),rfl,rfl,
      InfosKeep.refl⟩
  | succ n ih =>
    intro w team h hteam hslot hlength
    cases hmembers : team.Members with
    | nil =>
      refine ⟨w,team,?_,h,hteam,hmembers,rfl,rfl,InfosKeep.refl⟩
      unfold World.disbandLoop
      dsimp only
      rw [hmembers]
    | cons member members =>
      have hguid : member.Guid∈team.guids := by
        unfold ArenaTeam.guids
        rw [hmembers]
        exact List.mem_cons_self ..
      have hdel := h.delMember hteam hslot hguid
      generalize hw : (w.DelMember r slot team member.Guid)=s at hdel
      obtain ⟨w₁,team₁⟩ := s
      dsimp only at hdel
      have hid : team₁.TeamId=team.TeamId := by rw [hdel.out]
      have hteam₁ : w₁.GetArenaTeamById team₁.TeamId=some team₁ := by
        unfold World.GetArenaTeamById
        unfold World.GetArenaTeamById at hteam
        rw [hdel.store,lookup_replace,if_pos rfl,hid,hteam]
        rfl
      have hslot₁ : index team₁.GetSlot=some slot := by
        rw [hdel.out]
        exact hslot
      have hlength₁ : team₁.Members.length ≤ n := by
        rw [hdel.out]
        dsimp only
        rw [hmembers] at hlength ⊢
        unfold eraseMember
        rw [if_pos rfl]
        exact Nat.le_of_succ_le_succ hlength
      obtain ⟨w',team',hloop,hlinked,hlook,hnil,hnext,hstore,hkeeps⟩ :=
        ih hdel.linked hteam₁ hslot₁ hlength₁
      rw [hid] at hlook hstore hkeeps
      refine ⟨w',team',?_,hlinked,hlook,hnil,hnext.trans hdel.next,hstore.trans ?_,
        hdel.keeps.trans hkeeps⟩
      · unfold World.disbandLoop
        dsimp only
        rw [hmembers]
        dsimp only
        rw [hw]
        exact hloop
      · rw [hdel.store,← hid,remove_replace]

theorem Consistent.disband (h : Consistent r w) (hteam : w.GetArenaTeamById t=some team)
    (hslot : index team.GetSlot=some slot) :
    Consistent r (w.Disband r slot team) ∧ InfosKeep t w (w.Disband r slot team) := by
  have hid : team.TeamId=t := key_of_lookup hteam
  obtain ⟨w',team',hloop,hlinked,hlook,hnil,hnext,hstore,hkeeps⟩ :=
    h.toLinked.disbandLoop team.Members.length (hid.symm ▸ hteam) hslot (Nat.le_refl _)
  have heq : w.Disband r slot team=
      { w' with ArenaTeamStore := remove ArenaTeam.TeamId team.TeamId w'.ArenaTeamStore } := by
    unfold World.Disband
    rw [hloop]
  rw [heq,← hid]
  refine ⟨⟨⟨?_,hlinked.mirror⟩,fun other hother => ?_,?_⟩,hkeeps⟩
  · refine hlinked.agree.forget (v := sides) hlook ?_
    change team'.Members.map ArenaTeamMember.Guid=[]
    rw [hnil]
    rfl
  · have hmem : other∈remove ArenaTeam.TeamId team.TeamId w.ArenaTeamStore := hstore ▸ hother
    have hok := h.teams other (mem_remove.mp hmem).1
    rw [← hnext] at hok
    exact hok
  · exact hnext ▸ h.next

theorem Consistent.delMember (h : Consistent r w) (hteam : w.GetArenaTeamById t=some team)
    (hslot : index team.GetSlot=some slot) (hguid : guid∈team.guids)
    (hne : guid≠team.CaptainGuid) :
    Consistent r (w.DelMember r slot team guid).1 ∧
      InfosKeep t w (w.DelMember r slot team guid).1 := by
  have hdel := h.toLinked.delMember hteam hslot hguid
  have hok := h.teams team (mem_of_lookup hteam)
  have hid : team.TeamId=t := key_of_lookup hteam
  refine ⟨⟨hdel.linked,fun other hother => ?_,hdel.next ▸ h.next⟩,hid ▸ hdel.keeps⟩
  rw [hdel.store] at hother
  rw [hdel.next]
  rcases mem_of_mem_replace hother with heq | hmem
  · rw [heq,hdel.out]
    refine ⟨hok.id,hok.slot,?_,?_⟩
    · change team.CaptainGuid∈(eraseMember guid team.Members).map ArenaTeamMember.Guid
      rw [guids_eraseMember]
      exact (List.mem_erase_of_ne (Ne.symm hne)).mpr hok.captain
    · refine Nat.le_trans ?_ hok.bounded
      have hlength := congrArg List.length (guids_eraseMember guid team.Members)
      rw [List.length_map] at hlength
      dsimp only
      rw [hlength]
      exact (List.length_erase_le ..).trans (List.length_map ..).le
  · exact h.teams other hmem

theorem type_ne_zero (h : index team.GetSlot=some slot) : team.teamType≠0 := fun h0 => by
  unfold ArenaTeam.GetSlot at h
  rw [h0] at h
  cases h

theorem Added.table {team' : ArenaTeam} (h : Added r w slot team guid w' team')
    (hid : team.TeamId≠0) :
    w'.table=TwoSided.write w.table guid slot (some team.TeamId) := by
  have hentry : entry team.TeamId=some team.TeamId := if_neg hid
  rw [← hentry]
  refine Eq.trans ?_ World.table_UpdateCharArenaTeam
  unfold World.table
  rw [h.infos]

theorem Added.keeps {team' : ArenaTeam} (h : Added r w slot team guid w' team') (t : ℕ) :
    InfosKeep t w w' := by
  intro other slot' hzero hne
  rw [h.infos]
  exact InfosKeep.update (Or.inl h.free) other slot' hzero hne

theorem Consistent.accept (h : Consistent r w) {team' : ArenaTeam}
    (hteam : w.GetArenaTeamById t=some team) (hslot : index team.GetSlot=some slot)
    (hadd : w.AddMember r slot team guid=some (w',team')) :
    Consistent r (w'.setTeam team') ∧ InfosKeep t w (w'.setTeam team') := by
  have hok := h.teams team (mem_of_lookup hteam)
  have hadded := h.mirror.addMember hok.id.1 (type_ne_zero hslot) hadd
  have hplace : sides.place team=slot := by
    change (index team.GetSlot).getD 0=slot
    rw [hslot]
    rfl
  have hid : team'.TeamId=team.TeamId := by rw [hadded.last]
  refine ⟨⟨⟨?_,hadded.mirror⟩,fun other hother => ?_,?_⟩,hadded.keeps t⟩
  · change TwoSided.Agree sides (replace ArenaTeam.TeamId team' w'.ArenaTeamStore) w'.table
    have hlook : lookup sides.name (sides.name team') w.ArenaTeamStore=some team := by
      change lookup ArenaTeam.TeamId team'.TeamId w.ArenaTeamStore=some team
      rw [hid,key_of_lookup hteam]
      exact hteam
    have hjoin := h.agree.join hlook (a := guid) (World.table_eq_none (hplace ▸ hadded.free))
      (by rw [hadded.last]; rfl) (by
        rw [hadded.last]
        exact List.map_append ..)
    rw [hadded.store,hadded.table hok.id.1,← hplace]
    rw [show sides.name team'=team.TeamId from hid] at hjoin
    exact hjoin
  · change other∈replace ArenaTeam.TeamId team' w'.ArenaTeamStore at hother
    change TeamOk w'.NextArenaTeamId other
    rw [hadded.store] at hother
    rw [hadded.next]
    rcases mem_of_mem_replace hother with heq | hmem
    · rw [heq,hadded.last]
      refine ⟨hok.id,hok.slot,?_,?_⟩
      · unfold ArenaTeam.guids
        rw [List.map_append]
        exact List.mem_append_left _ hok.captain
      · have hroom := hadded.room
        dsimp only
        rw [List.length_append,List.length_singleton]
        omega
    · exact h.teams other hmem
  · change w'.NextArenaTeamId≠0
    rw [hadded.next]
    exact h.next

theorem Mirror.addFirst (h : Mirror r w) (hslot : index team.GetSlot=some slot)
    (hmembers : team.Members=[]) (hon : r.online guid=true)
    (hfree : (w.players guid).GetArenaTeamId slot=0) :
    ∃ w' team', w.AddMember r slot team guid=some (w',team') := by
  have hinfo : w.charInfos guid slot=0 := ((h guid hon).2 slot).symm.trans hfree
  have htype := Nat.pos_of_ne_zero (type_ne_zero hslot)
  unfold World.AddMember
  rw [if_neg (by rw [hmembers,List.length_nil]; omega),
    if_neg (by rw [hfree,hinfo,decide_eq_false (not_not.mpr rfl),Bool.and_false,Bool.or_false]
               exact Bool.false_ne_true)]
  exact ⟨_,_,rfl⟩

theorem Consistent.create (h : Consistent r w) (hid : team.TeamId=w.NextArenaTeamId)
    (hmembers : team.Members=[]) (hcaptain : team.CaptainGuid=guid)
    (hslot : index team.GetSlot=some slot) (hon : r.online guid=true)
    (hfree : (w.players guid).GetArenaTeamId slot=0) :
    ∃ w' team', ({ w with NextArenaTeamId := w.NextArenaTeamId+1 } : World).AddMember r slot
        team guid=some (w',team') ∧
      Consistent r { w' with ArenaTeamStore := w'.ArenaTeamStore++[team'] } ∧
      InfosKeep w.NextArenaTeamId w { w' with ArenaTeamStore := w'.ArenaTeamStore++[team'] } := by
  have hmirror : Mirror r { w with NextArenaTeamId := w.NextArenaTeamId+1 } := h.mirror
  have hne : team.TeamId≠0 := hid ▸ h.next
  obtain ⟨w',team',hadd⟩ := hmirror.addFirst hslot hmembers hon hfree
  have hadded := hmirror.addMember hne (type_ne_zero hslot) hadd
  have hid' : team'.TeamId=team.TeamId := by rw [hadded.last]
  have hguids' : team'.guids=[guid] := by
    unfold ArenaTeam.guids
    rw [hadded.last,hmembers]
    rfl
  have hnew : team.TeamId∉w.ArenaTeamStore.map ArenaTeam.TeamId := fun hmem => by
    obtain ⟨other,hother,heq⟩ := List.mem_map.mp hmem
    have hlt := (h.teams other hother).id.2
    omega
  have hguids : team.guids=[] := by
    unfold ArenaTeam.guids
    rw [hmembers]
    rfl
  refine ⟨w',team',hadd,⟨⟨?_,hadded.mirror⟩,fun other hother => ?_,?_⟩,
    hadded.keeps w.NextArenaTeamId⟩
  · have hfresh := TwoSided.Agree.fresh (v := sides) (b := team) h.agree hnew hguids
    have hreplace : replace sides.name team' (w.ArenaTeamStore++[team])=
        w'.ArenaTeamStore++[team'] := by
      rw [hadded.store]
      unfold replace
      rw [List.map_append,List.map_singleton]
      refine congrArg₂ (· ++ ·) ((List.map_congr_left fun other hother => ?_).trans
        (List.map_id _)) (congrArg (fun x => [x]) (if_pos hid'.symm))
      refine if_neg fun heq => hnew ?_
      change other.TeamId=team'.TeamId at heq
      rw [← hid',← heq]
      exact List.mem_map_of_mem hother
    have hplace : sides.place team=slot := by
      change (index team.GetSlot).getD 0=slot
      rw [hslot]
      rfl
    have hlook : lookup sides.name (sides.name team') (w.ArenaTeamStore++[team])=some team := by
      have hname : sides.name team'=sides.name team := hid'
      rw [hname]
      exact lookup_of_mem hfresh.names (List.mem_append_right _ (List.mem_singleton_self _))
    have hfree' : w.table guid (sides.place team)=none := by
      rw [hplace]
      exact World.table_eq_none hadded.free
    have hjoin := hfresh.join hlook hfree' (by rw [hadded.last]; rfl) (by
      change team'.guids=team.guids++[guid]
      rw [hguids',hguids]
      rfl)
    have htable := hadded.table hne
    rw [hreplace,hplace,show sides.name team'=team.TeamId from hid'] at hjoin
    change TwoSided.Agree sides (w'.ArenaTeamStore++[team']) w'.table
    rw [htable]
    exact hjoin
  · rcases List.mem_append.mp hother with hmem | hmem
    · rw [hadded.store] at hmem
      obtain ⟨hid₁,hslot₁,hcaptain₁,hbounded₁⟩ := h.teams other hmem
      refine ⟨⟨hid₁.1,?_⟩,hslot₁,hcaptain₁,hbounded₁⟩
      dsimp only
      rw [hadded.next]
      exact Nat.lt_succ_of_lt hid₁.2
    · rw [List.mem_singleton.mp hmem]
      refine ⟨⟨hid' ▸ hne,?_⟩,⟨slot,?_⟩,?_,?_⟩
      · dsimp only
        rw [hadded.next,hid',hid]
        exact Nat.lt_succ_self _
      · rw [hadded.last]
        exact hslot
      · rw [hguids',hadded.last]
        exact List.mem_singleton.mpr hcaptain
      have hroom := hadded.room
      rw [hadded.last]
      dsimp only
      rw [List.length_append,List.length_singleton]
      omega
  · dsimp only
    rw [hadded.next]
    exact Nat.succ_ne_zero _

/-- What a packet does that keeps the world consistent. -/
def Served (r : Realm) (w : World) (t : ℕ) (o : Option World) : Prop :=
  ∃ w', o=some w' ∧ Consistent r w' ∧ InfosKeep t w w'

theorem Consistent.same (h : Consistent r w) (t : ℕ) : Served r w t (some w) :=
  ⟨w,rfl,h,InfosKeep.refl⟩

theorem Consistent.invited (h : Consistent r w) (guid arenaTeamId t : ℕ) :
    Served r w t (some (w.setPlayer guid fun p => p.SetArenaTeamIdInvited arenaTeamId)) :=
  ⟨_,rfl,⟨⟨h.agree,h.mirror.invited guid arenaTeamId⟩,h.teams,h.next⟩,fun _ _ _ _ => rfl⟩

variable {e : Answers r} {sender : r.Online}

theorem Consistent.handleCreate (h : Consistent r w) {n : ℕ} {name : List Char}
    (hfits : n%256 < 3) :
    Served r w w.NextArenaTeamId (w.HandleArenaTeamCreateOpcode e sender n name) := by
  have hindex : index (n%256)=some ⟨n%256,hfits⟩ := dif_pos hfits
  unfold World.HandleArenaTeamCreateOpcode
  dsimp only
  rw [hindex]
  dsimp only
  split_ifs with hhas hbad htaken
  · exact h.same _
  · exact h.same _
  · exact h.same _
  have hslot : index (ArenaTeam.GetSlot ⟨w.NextArenaTeamId,GetTypeBySlot (n%256),name,
      sender.1,false,[]⟩)=some ⟨n%256,hfits⟩ := by
    change index (GetSlotByType (GetTypeBySlot (n%256)))=_
    rw [GetSlotByType_GetTypeBySlot hindex]
    exact hindex
  obtain ⟨w',team',hadd,hconsistent,hkeeps⟩ := @Consistent.create _ _ ⟨w.NextArenaTeamId,
    GetTypeBySlot (n%256),name,sender.1,false,[]⟩ _ _ h rfl rfl rfl hslot sender.2
    (not_not.mp hhas)
  rw [hadd]
  exact ⟨_,rfl,hconsistent,hkeeps⟩

theorem Consistent.handleInvite (h : Consistent r w) {arenaTeamId : ℕ} {name : List Char} :
    Served r w t (w.HandleArenaTeamInviteOpcode e sender arenaTeamId name) := by
  unfold World.HandleArenaTeamInviteOpcode
  split
  · exact h.same t
  rename_i player _
  by_cases hgrown : (!e.grown player.1)=true
  · rw [if_pos hgrown]
    exact h.same t
  rw [if_neg hgrown]
  cases hteam : w.GetArenaTeamById arenaTeamId with
  | none => exact h.same t
  | some team =>
    obtain ⟨i,hslot⟩ := (h.teams team (mem_of_lookup hteam)).slot
    dsimp only
    rw [hslot]
    dsimp only
    split_ifs
    iterate 7 exact h.same t
    exact h.invited player.1 team.TeamId t

theorem Consistent.handleAccept (h : Consistent r w) :
    Served r w (w.players sender.1).arenaTeamIdInvited
      (w.HandleArenaTeamAcceptOpcode e sender) := by
  unfold World.HandleArenaTeamAcceptOpcode
  cases hteam : w.GetArenaTeamById (w.players sender.1).arenaTeamIdInvited with
  | none => exact h.same _
  | some team =>
    obtain ⟨i,hslot⟩ := (h.teams team (mem_of_lookup hteam)).slot
    dsimp only
    rw [hslot]
    dsimp only
    split_ifs
    · exact h.same _
    · exact h.same _
    · cases hadd : w.AddMember r i team sender.1 with
      | none => exact h.same _
      | some added =>
        obtain ⟨hconsistent,hkeeps⟩ := h.accept hteam hslot hadd
        exact ⟨_,rfl,hconsistent,hkeeps⟩

theorem Consistent.handleLeave (h : Consistent r w) {arenaTeamId : ℕ}
    (hfits : ∀ team∈w.GetArenaTeamById arenaTeamId,
      e.inArena sender.1 ∨ e.queued sender.1 ∨ sender.1∈team.guids) :
    Served r w arenaTeamId (w.HandleArenaTeamLeaveOpcode e sender arenaTeamId) := by
  unfold World.HandleArenaTeamLeaveOpcode
  cases hteam : w.GetArenaTeamById arenaTeamId with
  | none => exact h.same _
  | some team =>
    obtain ⟨i,hslot⟩ := (h.teams team (mem_of_lookup hteam)).slot
    dsimp only
    rw [hslot]
    dsimp only
    split_ifs with harena hqueued hcaptain hlast
    · exact h.same _
    · exact h.same _
    · exact h.same _
    · obtain ⟨hconsistent,hkeeps⟩ := h.disband hteam hslot
      exact ⟨_,rfl,hconsistent,hkeeps⟩
    · have hguid := ((hfits team hteam).resolve_left harena).resolve_left hqueued
      obtain ⟨hconsistent,hkeeps⟩ := h.delMember hteam hslot hguid hlast
      exact ⟨_,rfl,hconsistent,hkeeps⟩

theorem Consistent.handleDisband (h : Consistent r w) {arenaTeamId : ℕ} :
    Served r w arenaTeamId (w.HandleArenaTeamDisbandOpcode e sender arenaTeamId) := by
  unfold World.HandleArenaTeamDisbandOpcode
  cases hteam : w.GetArenaTeamById arenaTeamId with
  | none => exact h.same _
  | some team =>
    obtain ⟨i,hslot⟩ := (h.teams team (mem_of_lookup hteam)).slot
    dsimp only
    rw [hslot]
    dsimp only
    split_ifs
    · exact h.same _
    · exact h.same _
    · exact h.same _
    · obtain ⟨hconsistent,hkeeps⟩ := h.disband hteam hslot
      exact ⟨_,rfl,hconsistent,hkeeps⟩

theorem Consistent.handleRemove (h : Consistent r w) {arenaTeamId : ℕ} {name : List Char} :
    Served r w arenaTeamId (w.HandleArenaTeamRemoveOpcode e sender arenaTeamId name) := by
  unfold World.HandleArenaTeamRemoveOpcode
  cases hteam : w.GetArenaTeamById arenaTeamId with
  | none => exact h.same _
  | some team =>
    obtain ⟨i,hslot⟩ := (h.teams team (mem_of_lookup hteam)).slot
    dsimp only
    by_cases hmay : (decide (team.CaptainGuid≠sender.1) || team.isSoloQueueTeam)=true
    · rw [if_pos hmay]
      exact h.same _
    rw [if_neg hmay]
    cases hmember : (e.normalizePlayerName name).bind team.GetMember with
    | none => exact h.same _
    | some member =>
      dsimp only
      rw [hslot]
      dsimp only
      split_ifs with hcaptain
      · exact h.same _
      · exact h.same _
      obtain ⟨name',_,hfind⟩ := Option.bind_eq_some_iff.mp hmember
      have hguid : member.Guid∈team.guids :=
        List.mem_map_of_mem (List.mem_of_find?_eq_some hfind)
      obtain ⟨hconsistent,hkeeps⟩ := h.delMember hteam hslot hguid (Ne.symm hcaptain)
      exact ⟨_,rfl,hconsistent,hkeeps⟩

theorem Consistent.handle (h : Consistent r w) (a : r.Online×Packet×Answers r)
    (hfits : Fits w a) : Served r w (named w a) (w.handle a) := by
  obtain ⟨sender,packet,e⟩ := a
  cases packet with
  | create slot name => exact h.handleCreate hfits
  | invite arenaTeamId invitedName => exact h.handleInvite
  | accept => exact h.handleAccept
  | decline => exact h.invited sender.1 0 0
  | leave arenaTeamId => exact h.handleLeave hfits
  | disband arenaTeamId => exact h.handleDisband
  | remove arenaTeamId name => exact h.handleRemove

theorem Consistent.orderly (h : Consistent r w) : Orderly r w := by
  have hcached : ∀ guid (slot : Fin 3) (t : ℕ), t≠0 →
      (w.charInfos guid slot=t ↔
        ∃ team∈w.ArenaTeamStore, team.TeamId=t ∧ team.GetSlot=slot ∧ guid∈team.guids) := by
    intro guid slot t ht
    constructor
    · intro hinfo
      obtain ⟨team,hmem,hid,hplace,hguid⟩ :=
        h.agree.entry guid slot t (World.table_eq_some.mpr ⟨hinfo,ht⟩)
      obtain ⟨i,hi⟩ := (h.teams team hmem).slot
      refine ⟨team,hmem,hid,?_,hguid⟩
      change (index team.GetSlot).getD 0=slot at hplace
      rw [hi] at hplace
      rw [index_eq_some hi]
      exact congrArg Fin.val hplace
    · rintro ⟨team,hmem,hid,hslot,hguid⟩
      have hlisted := h.agree.listed team hmem guid hguid
      have hplace : sides.place team=slot := by
        change (index team.GetSlot).getD 0=slot
        rw [hslot]
        unfold index
        rw [dif_pos slot.isLt]
        rfl
      rw [hplace] at hlisted
      exact (World.table_eq_some.mp hlisted).1.trans hid
  refine ⟨fun team hmem => ?_,fun team hmem => (h.teams team hmem).captain,
    fun team hmem => h.agree.once team hmem,fun team hmem => (h.teams team hmem).bounded,
    fun guid hon slot t ht => ?_,hcached⟩
  · obtain ⟨i,hi⟩ := (h.teams team hmem).slot
    exact List.mem_append_left [10] (type_of_index hi)
  · rw [(h.mirror guid hon).2 slot]
    exact hcached guid slot t ht

/-- What comes of a packet, where the run did not break before. -/
def next (s : Option World) (a : r.Online×Packet×Answers r) : Option World :=
  s.bind fun w => w.handle a

/-- The packet fits the world that it comes to. -/
def FitsAt (s : Option World) (a : r.Online×Packet×Answers r) : Prop := ∀ w∈s, Fits w a

instance (s : Option World) (a : r.Online×Packet×Answers r) : Decidable (FitsAt s a) := by
  unfold FitsAt
  infer_instance

/-- The packet clears and changes no record of a team that it does not name. -/
def NamedOnly (s : Option World) (a : r.Online×Packet×Answers r) : Prop :=
  ∀ w∈s, ∀ w'∈w.handle a, Keeps r (named w a) w w'

/-- Along a run of packets from a consistent world in which teams are made only for slots that
the arrays have, and only members leave a team, teams and players are in order and no packet
touches a record of another team. -/
theorem arena_teams_in_order (h : Consistent r w) {l : List (r.Online×Packet×Answers r)}
    (hfits : Meets next FitsAt (some w) l) :
    (∃ w', run next (some w) l=some w' ∧ Orderly r w') ∧ Meets next NamedOnly (some w) l := by
  let I : Option World → Prop := fun s => ∃ w', s=some w' ∧ Consistent r w'
  have hstart : I (some w) := ⟨w,rfl,h⟩
  have hstep : ∀ (s : Option World) (a : r.Online×Packet×Answers r), I s → FitsAt s a →
      I (next s a) := by
    rintro _ a ⟨w₁,rfl,h₁⟩ hfit
    obtain ⟨w₂,hw₂,h₂,_⟩ := h₁.handle a (hfit w₁ rfl)
    exact ⟨w₂,hw₂,h₂⟩
  have hnamed : ∀ (s : Option World) (a : r.Online×Packet×Answers r), I s → FitsAt s a →
      NamedOnly s a := by
    rintro _ a ⟨w₁,rfl,h₁⟩ hfit w₂ hw₂ w₃ hw₃
    obtain rfl := Option.some.inj hw₂
    obtain ⟨w₄,hw₄,h₄,hkeeps⟩ := h₁.handle a (hfit w₁ rfl)
    obtain rfl : w₃=w₄ := Option.some.inj (hw₃.symm.trans hw₄)
    exact hkeeps.keeps h₁.mirror h₄.mirror
  refine ⟨?_,meets_of_invariant hnamed hstep hstart hfits⟩
  obtain ⟨w',hw',h'⟩ := run_invariant hstep hstart hfits
  exact ⟨w',hw',h'.orderly⟩

/-- A world with no teams, where the places of each player are in order. -/
def empty : World := ⟨[],1,fun _ => ⟨id,fun _ => Info.zero,0⟩,fun _ _ => 0⟩

theorem consistent_empty : Consistent r empty where
  agree := ⟨List.nodup_nil,(fun _ _ _ h => by cases h),fun _ h => absurd h List.not_mem_nil,
    fun _ h => absurd h List.not_mem_nil⟩
  mirror _ _ := ⟨⟨Function.injective_id,fun _ => Iff.rfl⟩,fun _ => rfl⟩
  teams _ h := absurd h List.not_mem_nil
  next := Nat.one_ne_zero

section Samples

/-- Everybody is online; the name is one letter. -/
def everybody : Realm := ⟨fun _ => true,fun guid => [Char.ofNat (64+guid)]⟩

/-- A player. -/
def player (guid : ℕ) : everybody.Online := ⟨guid,rfl⟩

/-- The server refuses nothing and knows two names. -/
def willing : Answers everybody where
  badName _ := false
  normalizePlayerName := some
  findPlayerByName name := if name=['B'] then some (player 2) else none
  grown _ := true
  ignores _ _ := false
  allied _ _ := true
  inArena _ := false
  onBattleArena _ := false
  queued _ := false

/-- Packets of players. -/
def packets (l : List (ℕ×Packet)) : List (everybody.Online×Packet×Answers everybody) :=
  l.map fun x => (player x.1,x.2,willing)

theorem arena_teams_in_order_sample :
    let l := packets [(1,.create 0 ['X']),(2,.create 1 ['Y']),(1,.invite 1 ['B']),(2,.accept),
      (2,.leave 1),(1,.disband 1)]
    (∃ w', run next (some empty) l=some w' ∧ Orderly everybody w') ∧
      Meets next NamedOnly (some empty) l :=
  arena_teams_in_order consistent_empty (by decide)

/-- Who leaves a team that he is no member of loses the record of his own team, which still lists
him. A team for the fourth slot is read and written behind the arrays. -/
theorem outsider_leaves :
    (∃ w', run next (some empty)
        (packets [(1,.create 0 ['X']),(2,.create 0 ['Y']),(2,.leave 1)])=some w' ∧
      ¬Orderly everybody w') ∧
    run next (some empty) (packets [(1,.create 3 ['X'])])=none := by
  refine ⟨⟨_,rfl,fun h => ?_⟩,rfl⟩
  have hrecorded := (h.cached 2 0 2 (by decide)).mpr
    ⟨⟨2,2,['Y'],2,false,[⟨2,['B']⟩]⟩,by decide,rfl,rfl,by decide⟩
  exact absurd hrecorded (by decide)

end Samples

end Projectnelth.ArenaTeamModel
