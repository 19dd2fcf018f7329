import Mathlib
import Projectnelth.ChannelModel
import Projectnelth.RunInvariant

/-!
# Members and owner of a chat channel

The members are those who came and did not go. The channel names one of them as its owner, and
only he carries the flag. An owner who leaves nobody behind, who leaves where nobody takes his
place, or who takes himself out is still named.
-/

namespace Projectnelth.ChannelModel

open OrderedMap KeyedList RunInvariant

/-- The last that was noted about a player is that he joined. -/
def joinedLast (guid : ℕ) : List Note → Bool
  | [] => false
  | .joined other::notes => if other=guid then true else joinedLast guid notes
  | .left other::notes => if other=guid then false else joinedLast guid notes

/-- What is to hold of a channel. -/
structure Orderly (c : Channel) : Prop where
  /-- The members are the players that joined and did not go since. -/
  mirrored : ∀ guid, c.isOn guid=joinedLast guid c.notes
  filed : ∀ guid pinfo, find guid c.playersStore=some pinfo → pinfo.player=guid
  owned : c.ownerGUID=0 ∨ c.isOn c.ownerGUID
  /-- Only the owner carries the flag. -/
  marked : ∀ guid pinfo, find guid c.playersStore=some pinfo →
    pinfo.owner → guid=c.ownerGUID
  /-- A custom channel with ownership that has members has an owner. -/
  owns : c.constant=false → c.ownership → c.playersStore≠[] → c.ownerGUID≠0
  allowed : ∀ guid, c.isOn guid → guid∉c.bannedStore

/-- A member who is neither moderator nor game master changes nothing but his own record. -/
def PlainLaw (c : Channel) (a : Env×Call) : Prop :=
  c.isOn a.2.player.guid → (c.info a.2.player.guid).moderator=false → a.2.player.gm=false →
    (∀ guid, guid≠a.2.player.guid →
      find guid (c.step a).playersStore=find guid c.playersStore) ∧
    (c.step a).password=c.password ∧ (c.step a).bannedStore=c.bannedStore

/-- Where the owner goes, another member is made the owner. -/
def LeaveFits (c : Channel) (player : Player) : Prop :=
  c.isOn player.guid → player.guid=c.ownerGUID →
    c.constant=false ∧ c.ownership ∧ remove Prod.fst player.guid c.playersStore≠[]

instance (c : Channel) (player : Player) : Decidable (LeaveFits c player) := by
  unfold LeaveFits
  infer_instance

/-- Somebody takes the place of an owner that goes, no owner takes out or demotes himself, and
who sends a copy is a member. -/
def Fits (c : Channel) (a : Env×Call) : Prop :=
  match a.2 with
  | .joinChannel player _ => c.gmfeed → player.playerAccount → LeaveFits c player
  | .leaveChannel player => LeaveFits c player
  | .kickOrBan player badname _ => ∀ bad∈c.kicked a.1 player badname,
      bad.guid=c.ownerGUID → c.ownership ∧ bad.guid≠player.guid
  | .setMode player p2n mod set => ∀ newp∈c.moded a.1 player p2n mod,
      mod → set=false → newp.guid≠c.ownerGUID
  | .carbonCopy player what => what≠"" → c.gmfeed → c.isOn player.guid
  | _ => True

instance (c : Channel) (a : Env×Call) : Decidable (Fits c a) := by
  unfold Fits
  split <;> infer_instance

namespace Channel

variable {c : Channel} {guid other : ℕ} {pinfo : PlayerInfo}

theorem info_eq (h : find guid c.playersStore=some pinfo) : c.info guid=pinfo := by
  unfold info index
  rw [h]
  rfl

theorem isOn_eq (h : find guid c.playersStore=some pinfo) : c.isOn guid=true := by
  unfold isOn
  rw [h]
  rfl

/-- A member has a record. -/
theorem find_of_isOn (h : c.isOn guid) : find guid c.playersStore=some (c.info guid) := by
  obtain ⟨pinfo,hpinfo⟩ := Option.isSome_iff_exists.mp h
  rw [info_eq hpinfo,hpinfo]

/-- The records after one was written. -/
theorem find_modify (f : PlayerInfo → PlayerInfo) :
    find other (c.modify guid f).playersStore=
      if guid=other then some (f (c.info guid)) else find other c.playersStore :=
  find_write guid other _ _

theorem isOn_modify (hon : c.isOn guid) (f : PlayerInfo → PlayerInfo) :
    (c.modify guid f).isOn other=c.isOn other := by
  unfold isOn
  rw [find_modify]
  split_ifs with heq
  · rw [← heq]
    exact hon.symm
  · rfl

/-- A record that is not there is the one that is made. -/
theorem info_modify (f : PlayerInfo → PlayerInfo) :
    (c.modify guid f).info guid=f (c.info guid) := by
  refine info_eq ?_
  rw [find_modify,if_pos rfl]

/-- The records after one was taken away. -/
theorem find_erase :
    find other (c.erase guid).playersStore=
      if other=guid then none else find other c.playersStore :=
  find_remove guid other c.playersStore

theorem isOn_erase :
    (c.erase guid).isOn other=(!decide (other=guid) && c.isOn other) := by
  unfold isOn
  rw [find_erase]
  by_cases h : other=guid
  · rw [if_pos h,decide_eq_true h]
    rfl
  · rw [if_neg h,decide_eq_false h]
    rfl

/-- The records after the old owner lost the flag. -/
theorem find_dropOwner (hzero : c.isOn 0=false) :
    find guid c.dropOwner.playersStore=
      if guid=c.ownerGUID then (find guid c.playersStore).map (setOwnerFlag false)
      else find guid c.playersStore := by
  unfold dropOwner
  by_cases hon : c.isOn c.ownerGUID=true
  · have hne : c.ownerGUID≠0 := fun h0 => by
      rw [h0,hzero] at hon
      cases hon
    rw [if_pos (by rw [hon,decide_eq_true hne]; rfl),find_modify]
    split_ifs with h1 h2 h2
    · rw [h2,find_of_isOn hon]
      rfl
    · exact absurd h1.symm h2
    · exact absurd h2.symm h1
    · rfl
  · rw [if_neg (by rw [Bool.not_eq_true _ |>.mp hon,Bool.and_false]; exact Bool.false_ne_true)]
    split_ifs with h1
    · have hnone : find guid c.playersStore=none := by
        rw [h1]
        exact Option.not_isSome_iff_eq_none.mp hon
      rw [hnone]
      rfl
    · rfl

theorem dropOwner_frame (c : Channel) : c.dropOwner={ c with
    playersStore := c.dropOwner.playersStore } := by
  unfold dropOwner
  split_ifs <;> rfl

theorem find_setOwner (hzero : c.isOn 0=false) (hon : c.isOn guid) :
    find other (c.setOwner guid).playersStore=
      if other=guid then some { c.info guid with moderator := true,owner := true }
      else if other=c.ownerGUID then (find other c.playersStore).map (setOwnerFlag false)
      else find other c.playersStore := by
  have hne : guid≠0 := fun h0 => by
    rw [h0,hzero] at hon
    cases hon
  unfold setOwner
  dsimp only
  rw [if_pos hne,find_modify,info_modify,find_modify]
  by_cases heq : guid=other
  · rw [if_pos heq,if_pos heq.symm]
    have hinfo : info { c.dropOwner with ownerGUID := guid } guid=
        if guid=c.ownerGUID then setOwnerFlag false (c.info guid) else c.info guid := by
      have hfind := @find_dropOwner _ guid hzero
      rw [find_of_isOn hon] at hfind
      refine info_eq (c := { c.dropOwner with ownerGUID := guid }) ?_
      rw [hfind]
      split_ifs <;> rfl
    rw [hinfo]
    split_ifs <;> rfl
  · rw [if_neg heq,if_neg heq,if_neg (Ne.symm heq)]
    exact find_dropOwner hzero

theorem setOwner_frame (c : Channel) (guid : ℕ) : c.setOwner guid={ c with
    playersStore := (c.setOwner guid).playersStore
    ownerGUID := guid } := by
  unfold setOwner
  rw [dropOwner_frame]
  dsimp only
  split_ifs <;> rfl

theorem isOn_setOwner (hzero : c.isOn 0=false) (hon : c.isOn guid) :
    (c.setOwner guid).isOn other=c.isOn other := by
  unfold isOn
  rw [find_setOwner hzero hon]
  split_ifs with h1
  · rw [h1]
    exact hon.symm
  · rw [Option.isSome_map]
  · rfl

/-- What holds of a channel whether or not the owner is there. -/
structure Filed (c : Channel) : Prop where
  /-- The members are the players that joined and did not go since. -/
  mirrored : ∀ guid, c.isOn guid=joinedLast guid c.notes
  filed : ∀ guid pinfo, find guid c.playersStore=some pinfo → pinfo.player=guid
  /-- No member has the guid zero. -/
  proper : c.isOn 0=false
  allowed : ∀ guid, c.isOn guid → guid∉c.bannedStore
  /-- Only the owner carries the flag. -/
  marked : ∀ guid pinfo, find guid c.playersStore=some pinfo →
    pinfo.owner → guid=c.ownerGUID

/-- What holds of a channel between two calls. -/
structure Inv (c : Channel) : Prop extends Filed c where
  owned : c.ownerGUID=0 ∨ c.isOn c.ownerGUID
  flagged : ∀ pinfo, find c.ownerGUID c.playersStore=some pinfo →
    pinfo.owner=true ∧ pinfo.moderator=true
  /-- A custom channel with ownership that has members has an owner. -/
  owns : c.constant=false → c.ownership → c.playersStore≠[] → c.ownerGUID≠0

theorem Inv.orderly (h : Inv c) : Orderly c :=
  ⟨h.mirrored,h.filed,h.owned,h.marked,h.owns,h.allowed⟩

theorem Filed.ne_zero (h : Filed c) (hon : c.isOn guid) : guid≠0 := fun h0 => by
  rw [h0,h.proper] at hon
  cases hon

/-- A record is written that stays with its player and does not make him the owner. -/
theorem Filed.modify (h : Filed c) (hon : c.isOn guid) {f : PlayerInfo → PlayerInfo}
    (hplayer : ∀ pinfo, (f pinfo).player=pinfo.player)
    (howner : ∀ pinfo, (f pinfo).owner=pinfo.owner) : Filed (c.modify guid f) where
  mirrored other := (isOn_modify hon f).trans (h.mirrored other)
  filed other pinfo hfind := by
    rw [find_modify] at hfind
    split_ifs at hfind with heq
    · rw [← Option.some.inj hfind,hplayer,← heq]
      exact h.filed guid _ (find_of_isOn hon)
    · exact h.filed other pinfo hfind
  proper := (isOn_modify hon f).trans h.proper
  allowed other hother := h.allowed other ((isOn_modify hon f).symm.trans hother)
  marked other pinfo hfind hflag := by
    rw [find_modify] at hfind
    split_ifs at hfind with heq
    · rw [← Option.some.inj hfind,howner] at hflag
      rw [← heq]
      exact h.marked guid _ (find_of_isOn hon) hflag
    · exact h.marked other pinfo hfind hflag

/-- A member becomes the owner. -/
theorem Filed.setOwner (h : Filed c) (hon : c.isOn guid) : Inv (c.setOwner guid) := by
  have hframe := setOwner_frame c guid
  have hownerGUID : (c.setOwner guid).ownerGUID=guid := by rw [hframe]
  have hisOn : ∀ other, (c.setOwner guid).isOn other=c.isOn other :=
    fun other => isOn_setOwner h.proper hon
  refine
    { mirrored := fun other => ?_
      filed := fun other pinfo hfind => ?_
      proper := (hisOn 0).trans h.proper
      allowed := fun other hother => ?_
      marked := fun other pinfo hfind hflag => ?_
      owned := Or.inr ?_
      flagged := fun pinfo hfind => ?_
      owns := fun _ _ _ => ?_ }
  · rw [hisOn,h.mirrored,hframe]
  · rw [find_setOwner h.proper hon] at hfind
    split_ifs at hfind with h1 h2
    · rw [← Option.some.inj hfind,h1]
      exact h.filed guid (c.info guid) (find_of_isOn hon)
    · obtain ⟨old,hold,rfl⟩ := Option.map_eq_some_iff.mp hfind
      exact h.filed other old hold
    · exact h.filed other pinfo hfind
  · rw [hisOn] at hother
    rw [hframe]
    exact h.allowed other hother
  · rw [find_setOwner h.proper hon] at hfind
    rw [hownerGUID]
    split_ifs at hfind with h1 h2
    · exact h1
    · obtain ⟨old,_,rfl⟩ := Option.map_eq_some_iff.mp hfind
      cases hflag
    · exact absurd (h.marked other pinfo hfind hflag) h2
  · rw [hownerGUID,hisOn]
    exact hon
  · rw [hownerGUID,find_setOwner h.proper hon,if_pos rfl] at hfind
    rw [← Option.some.inj hfind]
    exact ⟨rfl,rfl⟩
  · rw [hownerGUID]
    exact h.ne_zero hon

/-- A record of an owned channel is written that stays as it was where the owner is about. -/
theorem Inv.modify (h : Inv c) (hon : c.isOn guid) {f : PlayerInfo → PlayerInfo}
    (hplayer : ∀ pinfo, (f pinfo).player=pinfo.player)
    (howner : ∀ pinfo, (f pinfo).owner=pinfo.owner)
    (hmoderator : guid=c.ownerGUID → (c.info guid).moderator → (f (c.info guid)).moderator=true) :
    Inv (c.modify guid f) where
  toFiled := h.toFiled.modify hon hplayer howner
  owned := h.owned.imp_right fun hown => (isOn_modify hon f).trans hown
  flagged pinfo hfind := by
    change find c.ownerGUID (c.modify guid f).playersStore=some pinfo at hfind
    rw [find_modify] at hfind
    split_ifs at hfind with heq
    · have hold := h.flagged (c.info guid) (heq ▸ find_of_isOn hon)
      rw [← Option.some.inj hfind]
      exact ⟨(howner _).trans hold.1,hmoderator heq hold.2⟩
    · exact h.flagged pinfo hfind
  owns hconstant hownership _ :=
    h.owns hconstant hownership (ne_nil_of_get (find_of_isOn hon))

/-- A player goes. -/
theorem Filed.erase (h : Filed c) : Filed (c.erase guid) where
  mirrored other := by
    rw [isOn_erase,h.mirrored]
    change _=if guid=other then false else joinedLast other c.notes
    by_cases heq : guid=other
    · rw [if_pos heq,decide_eq_true heq.symm]
      rfl
    · rw [if_neg heq,decide_eq_false (Ne.symm heq)]
      rfl
  filed other pinfo hfind := by
    rw [find_erase] at hfind
    split_ifs at hfind
    exact h.filed other pinfo hfind
  proper := by
    rw [isOn_erase,h.proper,Bool.and_false]
  allowed other hother := by
    rw [isOn_erase,Bool.and_eq_true] at hother
    exact h.allowed other hother.2
  marked other pinfo hfind := by
    rw [find_erase] at hfind
    split_ifs at hfind
    exact h.marked other pinfo hfind

/-- A player that is not the owner goes. -/
theorem Inv.erase (h : Inv c) (hne : guid≠c.ownerGUID) : Inv (c.erase guid) where
  toFiled := h.toFiled.erase
  owned := by
    refine h.owned.imp_right fun hown => ?_
    change (c.erase guid).isOn c.ownerGUID=true
    rw [isOn_erase,hown,decide_eq_false (Ne.symm hne)]
    rfl
  flagged pinfo hfind := by
    change find c.ownerGUID (c.erase guid).playersStore=some pinfo at hfind
    rw [find_erase,if_neg (Ne.symm hne)] at hfind
    exact h.flagged pinfo hfind
  owns hconstant hownership hstore := by
    refine h.owns hconstant hownership fun hnil => hstore ?_
    change remove Prod.fst guid c.playersStore=[]
    rw [hnil]
    rfl

/-- The flag is carried by the owner only. -/
theorem Inv.owner_iff (h : Inv c) (hon : c.isOn guid) :
    (c.info guid).owner=true ↔ guid=c.ownerGUID :=
  ⟨h.marked guid _ (find_of_isOn hon),fun heq =>
    (h.flagged (c.info guid) (heq ▸ find_of_isOn hon)).1⟩

theorem Inv.leaveChannel (h : Inv c) {player : Player} (hfits : LeaveFits c player) :
    Inv (c.leaveChannel player) := by
  unfold Channel.leaveChannel
  dsimp only
  by_cases hon : c.isOn player.guid=true
  · rw [if_neg (by rw [hon]; exact Bool.false_ne_true)]
    by_cases howner : player.guid=c.ownerGUID
    · obtain ⟨hconstant,hownership,hrest⟩ := hfits hon howner
      rw [if_pos (by
        change (!c.constant && (c.info player.guid).owner && c.ownership)=true
        rw [hconstant,(h.owner_iff hon).mpr howner,hownership]
        rfl)]
      cases hhead : (c.erase player.guid).playersStore.head? with
      | none => exact absurd (List.head?_eq_none_iff.mp hhead) hrest
      | some x =>
        have hfind := find_of_head hhead
        have hplayer := h.toFiled.erase.filed x.1 x.2 hfind
        have hmember : (c.erase player.guid).isOn x.2.player=true := by
          rw [hplayer]
          exact isOn_eq hfind
        have hfiled := h.toFiled.erase.modify hmember (f := setModerator true)
          (fun _ => rfl) (fun _ => rfl)
        exact hfiled.setOwner ((isOn_modify hmember _).trans hmember)
    · have hflag : (c.info player.guid).owner=false :=
        Bool.eq_false_iff.mpr fun hflag => howner ((h.owner_iff hon).mp hflag)
      rw [if_neg (by rw [hflag,Bool.and_false,Bool.false_and]; exact Bool.false_ne_true)]
      exact h.erase howner
  · rw [if_pos (by rw [Bool.not_eq_true _ |>.mp hon]; rfl)]
    exact h

/-- The channel with a player who came. -/
def enter (c : Channel) (guid : ℕ) : Channel :=
  { c with
    playersStore := write guid ⟨guid,false,false,false⟩ c.playersStore
    notes := .joined guid::c.notes }

theorem find_enter :
    find other (c.enter guid).playersStore=
      if guid=other then some ⟨guid,false,false,false⟩ else find other c.playersStore :=
  find_write guid other _ _

theorem isOn_enter :
    (c.enter guid).isOn other=if guid=other then true else c.isOn other := by
  unfold isOn
  rw [find_enter]
  split_ifs <;> rfl

/-- A player comes who is not banned. -/
theorem Filed.join (h : Filed c) (hne : guid≠0) (hbanned : guid∉c.bannedStore) :
    Filed (c.enter guid) := by
  have hisOn : ∀ other, (c.enter guid).isOn other=if guid=other then true else c.isOn other :=
    fun other => isOn_enter
  refine
    { mirrored := fun other => ?_
      filed := fun other pinfo hfind => ?_
      proper := (hisOn 0).trans ((if_neg hne).trans h.proper)
      allowed := fun other hother => ?_
      marked := fun other pinfo hfind hflag => ?_ }
  · rw [hisOn,h.mirrored]
    rfl
  · rw [find_enter] at hfind
    split_ifs at hfind with heq
    · rw [← Option.some.inj hfind]
      exact heq
    · exact h.filed other pinfo hfind
  · rw [hisOn] at hother
    split_ifs at hother with heq
    · rw [← heq]
      exact hbanned
    · exact h.allowed other hother
  · rw [find_enter] at hfind
    split_ifs at hfind with heq
    · rw [← Option.some.inj hfind] at hflag
      cases hflag
    · exact h.marked other pinfo hfind hflag

/-- A player comes where somebody is the owner, or nobody is to be. -/
theorem Inv.join (h : Inv c) (hne : guid≠0) (hoff : c.isOn guid=false)
    (hbanned : guid∉c.bannedStore)
    (hno : c.constant=false → c.ownership → c.ownerGUID≠0) : Inv (c.enter guid) := by
  have hguid : guid≠c.ownerGUID := fun heq =>
    h.owned.elim (fun h0 => hne (heq.trans h0)) fun hon => by
      rw [← heq,hoff] at hon
      cases hon
  refine
    { toFiled := h.toFiled.join hne hbanned
      owned := h.owned.imp_right fun hon => ?_
      flagged := fun pinfo hfind => ?_
      owns := fun hconstant hownership _ => hno hconstant hownership }
  · change (c.enter guid).isOn c.ownerGUID=true
    rw [isOn_enter,if_neg hguid]
    exact hon
  · change find c.ownerGUID (c.enter guid).playersStore=some pinfo at hfind
    rw [find_enter,if_neg hguid] at hfind
    exact h.flagged pinfo hfind

theorem Inv.joinChannel (h : Inv c) {e : Env} {player : Player} {pass : String}
    (hfits : c.gmfeed → player.playerAccount → LeaveFits c player) :
    Inv (c.joinChannel e player pass) := by
  unfold Channel.joinChannel
  dsimp only
  split_ifs with hfeed hon hbanned hpass hlfg hfirst
  · rw [Bool.and_eq_true] at hfeed
    exact h.leaveChannel (hfits hfeed.1 hfeed.2)
  · exact h
  · exact h
  · exact h
  · exact h
  · have hmember : (c.enter player.guid).isOn player.guid=true :=
      isOn_enter.trans (if_pos rfl)
    have hfiled := h.toFiled.join player.guid_ne_zero
      (fun hmem => hbanned (decide_eq_true hmem))
    refine (hfiled.setOwner hmember).modify ?_ (fun _ => rfl) (fun _ => rfl) fun _ _ => rfl
    exact (isOn_setOwner hfiled.proper hmember).trans hmember
  · refine h.join player.guid_ne_zero (Bool.eq_false_iff.mpr hon)
      (fun hmem => hbanned (decide_eq_true hmem)) fun hconstant hownership h0 => hfirst ?_
    rw [hconstant,hownership,decide_eq_true h0]
    rfl

/-- Who may use what moderators use is a member. -/
theorem isOn_of_mayModerate {player : Player} (h : c.mayModerate player=true) :
    c.isOn player.guid=true := by
  unfold mayModerate at h
  rw [Bool.and_eq_true] at h
  exact h.1

/-- What `KickOrBan` has asked about a player that it takes out. -/
theorem kicked_spec {e : Env} {player bad : Player} {badname : String}
    (h : c.kicked e player badname=some bad) :
    c.mayModerate player=true ∧ c.isOn bad.guid=true := by
  unfold kicked at h
  split_ifs at h with hmay
  refine ⟨by simpa using hmay,?_⟩
  split at h
  · cases h
  · split_ifs at h with hon howner
    rw [← Option.some.inj h]
    simpa using hon

/-- What `SetMode` has asked about a player that it is about. -/
theorem moded_spec {e : Env} {player newp : Player} {p2n : String} {mod : Bool}
    (h : c.moded e player p2n mod=some newp) :
    c.mayModerate player=true ∧ c.isOn newp.guid=true := by
  unfold moded at h
  split_ifs at h with hmay hself
  refine ⟨by simpa using hmay,?_⟩
  split at h
  · cases h
  split_ifs at h with hon howner
  rw [← Option.some.inj h]
  simp only [Bool.or_eq_true,not_or] at hon
  simpa using hon.1

/-- The ban list is another one that no member stands on. -/
theorem Filed.ban (h : Filed c) {l : List ℕ} (hl : ∀ other, c.isOn other → other∉l) :
    Filed { c with bannedStore := l } :=
  ⟨h.mirrored,h.filed,h.proper,hl,h.marked⟩

theorem Inv.ban (h : Inv c) {l : List ℕ} (hl : ∀ other, c.isOn other → other∉l) :
    Inv { c with bannedStore := l } :=
  ⟨h.toFiled.ban hl,h.owned,h.flagged,h.owns⟩

/-- The ban list after a player was taken out. -/
def bans (c : Channel) (guid : ℕ) (ban : Bool) : List ℕ :=
  if ban && !c.isBanned guid then guid::c.bannedStore else c.bannedStore

/-- Nobody who stays when a player is taken out is banned. -/
theorem Filed.not_mem_bans (h : Filed c) (ban : Bool) (other : ℕ)
    (hon : (c.erase guid).isOn other) : other∉c.bans guid ban := by
  rw [isOn_erase,Bool.and_eq_true] at hon
  have hold := h.allowed other hon.2
  unfold bans
  split_ifs
  · refine fun hmem => (List.mem_cons.mp hmem).elim (fun heq => ?_) hold
    rw [decide_eq_true heq] at hon
    cases hon.1
  · exact hold

theorem Inv.kickOrBan (h : Inv c) {e : Env} {player : Player} {badname : String} {ban : Bool}
    (hfits : ∀ bad∈c.kicked e player badname,
      bad.guid=c.ownerGUID → c.ownership ∧ bad.guid≠player.guid) :
    Inv (c.kickOrBan e player badname ban) := by
  unfold Channel.kickOrBan
  cases hkicked : c.kicked e player badname with
  | none => exact h
  | some bad =>
    obtain ⟨hmay,hon⟩ := kicked_spec hkicked
    have hlist : (if ban && !c.isBanned bad.guid then
        { c with bannedStore := bad.guid::c.bannedStore } else c)=
        { c with bannedStore := c.bans bad.guid ban } := by
      unfold bans
      split_ifs <;> rfl
    dsimp only
    rw [hlist]
    have hbans := @Filed.not_mem_bans _ bad.guid h.toFiled ban
    by_cases howner : bad.guid=c.ownerGUID
    · obtain ⟨hownership,hother⟩ := hfits bad hkicked howner
      have hstay : isOn { c.erase bad.guid with bannedStore := c.bans bad.guid ban } player.guid=
          true := by
        change (c.erase bad.guid).isOn player.guid=true
        rw [isOn_erase,decide_eq_false (Ne.symm hother),isOn_of_mayModerate hmay]
        rfl
      have hstore : (remove Prod.fst bad.guid c.playersStore).isEmpty=false := by
        cases hnil : remove Prod.fst bad.guid c.playersStore with
        | nil =>
          have hfind := find_of_isOn hstay
          change find player.guid (remove Prod.fst bad.guid c.playersStore)=_ at hfind
          rw [hnil] at hfind
          cases hfind
        | cons x l => rfl
      rw [if_pos (by
        change (decide (c.ownerGUID=bad.guid) && c.ownership &&
          !(remove Prod.fst bad.guid c.playersStore).isEmpty)=true
        rw [decide_eq_true howner.symm,hownership,hstore]
        rfl)]
      have hfiled := ((h.toFiled.erase.ban hbans).modify hstay (f := setModerator true)
        (fun _ => rfl) (fun _ => rfl))
      exact hfiled.setOwner ((isOn_modify hstay _).trans hstay)
    · rw [if_neg (by
        rw [decide_eq_false (Ne.symm howner),Bool.false_and,Bool.false_and]
        exact Bool.false_ne_true)]
      exact (h.erase howner).ban hbans

theorem Inv.unBan (h : Inv c) {e : Env} {player : Player} {badname : String} :
    Inv (c.unBan e player badname) := by
  unfold Channel.unBan
  split_ifs
  · exact h
  split
  · exact h
  · split_ifs
    · exact h
    · exact h.ban fun other hon hmem => h.allowed other hon (List.mem_of_mem_filter hmem)

theorem Inv.setPassword (h : Inv c) {player : Player} {pass : String} :
    Inv (c.setPassword player pass) := by
  unfold Channel.setPassword
  split_ifs
  · exact h
  · exact ⟨⟨h.mirrored,h.filed,h.proper,h.allowed,h.marked⟩,h.owned,h.flagged,h.owns⟩

theorem Inv.toggleAnnounce (h : Inv c) {player : Player} : Inv (c.toggleAnnounce player) := by
  unfold Channel.toggleAnnounce
  split_ifs
  · exact h
  · exact ⟨⟨h.mirrored,h.filed,h.proper,h.allowed,h.marked⟩,h.owned,h.flagged,h.owns⟩

/-- A moderator is made or unmade, or a member muted or unmuted. -/
theorem Inv.setMode (h : Inv c) {e : Env} {player : Player} {p2n : String} {mod set : Bool}
    (hfits : ∀ newp∈c.moded e player p2n mod, mod → set=false → newp.guid≠c.ownerGUID) :
    Inv (c.setMode e player p2n mod set) := by
  unfold Channel.setMode
  cases hmoded : c.moded e player p2n mod with
  | none => exact h
  | some newp =>
    have hon := (moded_spec hmoded).2
    cases mod with
    | false => exact h.modify hon (fun _ => rfl) (fun _ => rfl) fun _ hmoderator => hmoderator
    | true =>
      refine h.modify hon (fun _ => rfl) (fun _ => rfl) fun howner _ => ?_
      cases set with
      | false => exact absurd howner (hfits newp hmoded rfl rfl)
      | true => rfl

/-- A member is made the owner. -/
theorem Inv.setOwnerByName (h : Inv c) {e : Env} {player : Player} {newname : String} :
    Inv (c.setOwnerByName e player newname) := by
  unfold Channel.setOwnerByName
  split_ifs
  · exact h
  · exact h
  split
  · exact h
  rename_i newp _
  split_ifs with hon
  · exact h
  have hmember : c.isOn newp.guid=true := by
    simp only [Bool.or_eq_true,not_or] at hon
    simpa using hon.1
  have hfiled := h.toFiled.modify hmember (f := setModerator true)
    (fun _ => rfl) (fun _ => rfl)
  exact hfiled.setOwner ((isOn_modify hmember _).trans hmember)

theorem Inv.carbonCopy (h : Inv c) {what : String} (hfits : what≠"" → c.gmfeed → c.isOn guid) :
    Inv (c.carbonCopy guid what) := by
  unfold Channel.carbonCopy
  split_ifs with hwhat hfeed
  · exact h
  · exact h
  · exact h.modify (hfits hwhat (by simpa using hfeed)) (fun _ => rfl) (fun _ => rfl)
      fun _ hmoderator => hmoderator

theorem Inv.step (h : Inv c) (a : Env×Call) (hfits : Fits c a) : Inv (c.step a) := by
  obtain ⟨e,call⟩ := a
  cases call with
  | joinChannel player pass => exact h.joinChannel hfits
  | leaveChannel player => exact h.leaveChannel hfits
  | kickOrBan player badname ban => exact h.kickOrBan hfits
  | unBan player badname => exact h.unBan
  | password player pass => exact h.setPassword
  | setMode player p2n mod set => exact h.setMode hfits
  | setOwner player newname => exact h.setOwnerByName
  | announce player => exact h.toggleAnnounce
  | say player what => exact h
  | carbonCopy player what => exact h.carbonCopy hfits

/-- A member who is no moderator and no game master may not use what moderators use. -/
theorem mayModerate_of_plain {player : Player} (hmod : (c.info player.guid).moderator=false)
    (hgm : player.gm=false) : c.mayModerate player=false := by
  unfold mayModerate
  rw [hmod,hgm,Bool.or_false,Bool.and_false]

theorem Inv.ne_owner (h : Inv c) (hon : c.isOn guid) (hmod : (c.info guid).moderator=false) :
    guid≠c.ownerGUID := fun heq => by
  have hflag := (h.flagged (c.info guid) (heq ▸ find_of_isOn hon)).2
  rw [hmod] at hflag
  cases hflag

/-- Who leaves and is not the owner takes only himself away. -/
theorem Inv.leaveChannel_eq (h : Inv c) {player : Player} (hon : c.isOn player.guid)
    (hne : player.guid≠c.ownerGUID) : c.leaveChannel player=c.erase player.guid := by
  have hflag : (c.info player.guid).owner=false :=
    Bool.eq_false_iff.mpr fun hflag => hne ((h.owner_iff hon).mp hflag)
  unfold Channel.leaveChannel
  dsimp only
  rw [if_neg (by rw [hon]; exact Bool.false_ne_true),
    if_neg (by rw [hflag,Bool.and_false,Bool.false_and]; exact Bool.false_ne_true)]

/-- A member who is neither moderator nor game master changes at most his own record, or goes. -/
theorem Inv.step_of_plain (h : Inv c) {a : Env×Call} (hon : c.isOn a.2.player.guid)
    (hmod : (c.info a.2.player.guid).moderator=false) (hgm : a.2.player.gm=false) :
    c.step a=c ∨ c.step a=c.erase a.2.player.guid ∨ c.step a=c.modify a.2.player.guid id := by
  have hne := h.ne_owner hon hmod
  have hmay := mayModerate_of_plain hmod hgm
  obtain ⟨e,call⟩ := a
  cases call with
  | joinChannel player pass =>
    change c.isOn player.guid=true at hon
    change c.joinChannel e player pass=c ∨ c.joinChannel e player pass=c.erase player.guid ∨ _
    unfold Channel.joinChannel
    dsimp only
    split_ifs
    · exact Or.inr (Or.inl (h.leaveChannel_eq hon hne))
    · exact Or.inl rfl
  | leaveChannel player => exact Or.inr (Or.inl (h.leaveChannel_eq hon hne))
  | kickOrBan player badname ban =>
    change c.mayModerate player=false at hmay
    refine Or.inl ?_
    change c.kickOrBan e player badname ban=c
    unfold Channel.kickOrBan kicked
    rw [hmay]
    rfl
  | unBan player badname =>
    change c.mayModerate player=false at hmay
    refine Or.inl ?_
    change c.unBan e player badname=c
    unfold Channel.unBan
    rw [hmay]
    rfl
  | password player pass =>
    change c.mayModerate player=false at hmay
    refine Or.inl ?_
    change c.setPassword player pass=c
    unfold Channel.setPassword
    rw [hmay]
    rfl
  | setMode player p2n mod set =>
    change c.mayModerate player=false at hmay
    refine Or.inl ?_
    change c.setMode e player p2n mod set=c
    unfold Channel.setMode moded
    rw [hmay]
    rfl
  | setOwner player newname =>
    change c.isOn player.guid=true at hon
    change player.guid≠c.ownerGUID at hne
    change player.gm=false at hgm
    refine Or.inl ?_
    change c.setOwnerByName e player newname=c
    unfold Channel.setOwnerByName
    rw [if_neg (by rw [hon]; exact Bool.false_ne_true),
      if_pos (by rw [hgm,decide_eq_true hne]; rfl)]
  | announce player =>
    change c.mayModerate player=false at hmay
    refine Or.inl ?_
    change c.toggleAnnounce player=c
    unfold Channel.toggleAnnounce
    rw [hmay]
    rfl
  | say player what => exact Or.inl rfl
  | carbonCopy player what =>
    change c.carbonCopy player.guid what=c ∨ _ ∨ c.carbonCopy player.guid what=_
    unfold Channel.carbonCopy
    split_ifs
    · exact Or.inl rfl
    · exact Or.inl rfl
    · exact Or.inr (Or.inr rfl)

theorem Inv.plainLaw (h : Inv c) (a : Env×Call) : PlainLaw c a := by
  intro hon hmod hgm
  rcases h.step_of_plain hon hmod hgm with heq | heq | heq
  · rw [heq]
    exact ⟨fun _ _ => rfl,rfl,rfl⟩
  · rw [heq]
    refine ⟨fun other hne => ?_,rfl,rfl⟩
    rw [find_erase,if_neg hne]
  · rw [heq]
    refine ⟨fun other hne => ?_,rfl,rfl⟩
    rw [find_modify,if_neg (Ne.symm hne)]

/-- A channel that was made or loaded, with nobody in it. -/
def Fresh (c : Channel) : Prop := c.playersStore=[] ∧ c.ownerGUID=0 ∧ c.notes=[]

instance (c : Channel) : Decidable (Fresh c) := by
  unfold Fresh
  infer_instance

theorem Fresh.inv (h : Fresh c) : Inv c := by
  obtain ⟨hstore,howner,hnotes⟩ := h
  have hnone : ∀ guid, find guid c.playersStore=none := fun guid => by
    rw [hstore]
    rfl
  have hoff : ∀ guid, c.isOn guid=false := fun guid => by
    unfold isOn
    rw [hnone]
    rfl
  refine
    { mirrored := fun guid => ?_
      filed := fun guid pinfo hfind => ?_
      proper := hoff 0
      allowed := fun guid hon => ?_
      marked := fun guid pinfo hfind => ?_
      owned := Or.inl howner
      flagged := fun pinfo hfind => ?_
      owns := fun _ _ hne => absurd hstore hne }
  · rw [hoff,hnotes]
    rfl
  · rw [hnone] at hfind
    cases hfind
  · rw [hoff] at hon
    cases hon
  · rw [hnone] at hfind
    cases hfind
  · rw [hnone] at hfind
    cases hfind

end Channel

open Channel

/-- Along a run from a channel with nobody in it, in which somebody takes the place of every
owner that goes, no owner takes out or demotes himself and only members send copies, the channel
is in order and plain members change nothing of others. -/
theorem channel_in_order {c : Channel} {calls : List (Env×Call)} (hfresh : Fresh c)
    (hfits : Meets Channel.step Fits c calls) :
    Orderly (run Channel.step c calls) ∧ Meets Channel.step PlainLaw c calls := by
  have hinv := hfresh.inv
  refine ⟨(run_invariant (fun _ a h hfit => h.step a hfit) hinv hfits).orderly,?_⟩
  exact meets_of_invariant (fun _ a h _ => h.plainLaw a) (fun _ a h hfit => h.step a hfit) hinv
    hfits

section Samples

/-- A player of one side, who is no game master. -/
def somebody (guid : ℕ) (hguid : guid≠0) (name : String) : Player :=
  ⟨guid,hguid,name,0,false,true,false⟩

/-- The first to come. -/
def ann : Player := somebody 1 (by decide) "Ann"

/-- The second to come. -/
def bob : Player := somebody 2 (by decide) "Bob"

/-- Both are found by their names. -/
def world : Env where
  findPlayerByName name := if name="Ann" then some ann else if name="Bob" then some bob else none
  restrictedLfg := false
  twoSide := false

/-- A custom channel that was just made. -/
def room : Channel := ⟨false,false,false,true,true,0,"",[],[],[]⟩

/-- The calls in a world where both are found. -/
def calls (l : List Call) : List (Env×Call) := l.map fun call => (world,call)

theorem channel_in_order_sample :
    let l := calls [.joinChannel ann "",.joinChannel bob "",.kickOrBan ann "Bob" true,
      .unBan ann "Bob",.joinChannel bob "",.leaveChannel ann]
    Orderly (run Channel.step room l) ∧ Meets Channel.step PlainLaw room l :=
  channel_in_order (by decide) (by decide)

/-- An owner that bans himself stays a member, is banned, and is stored under the guid zero.
Whoever comes after the last owner left alone gets no owner. -/
theorem owner_bans_himself_or_leaves :
    Fresh room ∧
    ¬Orderly (run Channel.step room
      (calls [.joinChannel ann "",.joinChannel bob "",.kickOrBan ann "Ann" true])) ∧
    ¬Orderly (run Channel.step room
      (calls [.joinChannel ann "",.leaveChannel ann,.joinChannel bob ""])) := by
  refine ⟨by decide,fun h => ?_,fun h => ?_⟩
  · exact absurd (h.mirrored 1) (by decide)
  · exact absurd h.owned (by decide)

end Samples

end Projectnelth.ChannelModel
