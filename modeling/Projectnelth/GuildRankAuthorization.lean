import Mathlib
import Projectnelth.GuildRankModel
import Projectnelth.RunInvariant

/-!
# Who may change or remove whom

Three handlers act on another member: one step up or down, a rank out of the
packet, and removal. For each the states are characterised in which it keeps
the guild's policy, that is, acts only downwards and with the right it needs.
`HandleSetMemberRank` compares no ranks, and every handler takes a rights word
without the empty bit for a permission.
-/

namespace Projectnelth.GuildRankAuthorization

open GuildRankModel RunInvariant

/-- The packets by which a member acts on another one. -/
inductive MemberOp where
  | updateMemberRank (guid : UInt64) (demote : Bool)
  | setMemberRank (targetGuid : UInt64) (rank : UInt32)
  | removeMember (guid : UInt64)

/-- The handlers, by packet. -/
def handle (g : Guild) (player : UInt32) : MemberOp → Guild
  | .updateMemberRank guid demote => handleUpdateMemberRank g player guid demote
  | .setMemberRank targetGuid rank => handleSetMemberRank g player targetGuid rank
  | .removeMember guid => handleRemoveMember g player guid

/-- The key of the member a packet names. -/
def target : MemberOp → UInt32
  | .updateMemberRank guid _ => GUID_LOPART guid
  | .setMemberRank targetGuid _ => GUID_LOPART targetGuid
  | .removeMember guid => GUID_LOPART guid

/-- The rank of a member carries a right, beyond the bit that all rights share. -/
def Carries (g : Guild) (a : Member) (right : UInt32) : Prop :=
  getRankRights g a.rankId &&& (right &&& ~~~GR_RIGHT_EMPTY)≠0

instance (g : Guild) (a : Member) (right : UInt32) : Decidable (Carries g a right) :=
  inferInstanceAs (Decidable (_≠_))

/-- The right that a change of rank takes, by its direction. -/
def rightFor (old new : UInt8) : UInt32 := if old < new then GR_RIGHT_DEMOTE else GR_RIGHT_PROMOTE

/-- The policy between a state and the next: nobody's rank or membership
changes, or that of the target alone does, the actor stands above the target
before and after, carries the right, and the new rank exists. -/
def Respects (g g' : Guild) (player target : UInt32) : Prop :=
  (∀ guid, getMember g' guid=getMember g guid) ∨
  ∃ a t, getMember g player=some a ∧ getMember g target=some t ∧ player≠target ∧
    a.rankId < t.rankId ∧ (∀ guid, guid≠target → getMember g' guid=getMember g guid) ∧
    match getMember g' target with
    | none => Carries g a GR_RIGHT_REMOVE
    | some t' => a.rankId < t'.rankId ∧ t'.rankId.toNat < g.ranks.length ∧
      Carries g a (rightFor t.rankId t'.rankId)

/-- The checks that a handler makes on the actor and on another member. -/
def Accepted (g : Guild) (player : UInt32) (a t : Member) : MemberOp → Prop
  | .updateMemberRank _ true => hasRankRight g player GR_RIGHT_DEMOTE=true ∧
    a.rankId < t.rankId ∧ t.rankId < getLowestRankId g
  | .updateMemberRank _ false => hasRankRight g player GR_RIGHT_PROMOTE=true ∧
    a.rankId+1 < t.rankId
  | .setMemberRank _ rank => hasRankRight g player (setMemberRankRight t rank)=true
  | .removeMember _ => hasRankRight g player GR_RIGHT_REMOVE=true ∧
    t.rankId≠GR_GUILDMASTER ∧ a.rankId < t.rankId

/-- What a handler does once its checks pass. -/
def effect (g : Guild) (t : Member) : MemberOp → Guild
  | .updateMemberRank _ demote =>
    changeRank g t.guid (if demote then t.rankId+1 else t.rankId-1)
  | .setMemberRank _ rank => changeRank g t.guid rank.toUInt8
  | .removeMember guid => deleteMember g guid

/-- What the checks of a handler leave open. -/
def Lawful (g : Guild) (a t : Member) : MemberOp → Prop
  | .updateMemberRank _ true => Carries g a GR_RIGHT_DEMOTE
  | .updateMemberRank _ false => Carries g a GR_RIGHT_PROMOTE ∧ t.rankId.toNat ≤ g.ranks.length
  | .setMemberRank _ rank => rank.toUInt8=t.rankId ∨
    a.rankId < t.rankId ∧ a.rankId < rank.toUInt8 ∧ rank.toUInt8.toNat < g.ranks.length ∧
      Carries g a (rightFor t.rankId rank.toUInt8)
  | .removeMember guid => Carries g a GR_RIGHT_REMOVE ∧
    (g.leaderGuid.toUInt64=guid → ∃ m∈g.members, m.guid≠t.guid ∧ m.rankId=GR_GUILDMASTER)

/-- An accepted packet asks for nothing that the checks leave open. -/
def Proper (g : Guild) (player : UInt32) (op : MemberOp) : Prop :=
  ∀ a t, getMember g player=some a → getMember g (target op)=some t → player≠target op →
    Accepted g player a t op → Lawful g a t op

/-- Without an actor who is a member and a target who is one, nothing happens. -/
theorem handle_absent {g : Guild} {player : UInt32} (op : MemberOp)
    (h : getMember g player=none ∨ getMember g (target op)=none) : handle g player op=g := by
  have hright : ∀ right, getMember g player=none → hasRankRight g player right=false := by
    intro right hp
    simp only [hasRankRight,hp]
  cases op with
  | updateMemberRank guid demote =>
    simp only [handle,target,handleUpdateMemberRank] at h ⊢
    rcases h with h | h
    · rw [hright _ h]
      rfl
    · rw [h]
      exact ite_self g
  | setMemberRank targetGuid rank =>
    simp only [handle,target,handleSetMemberRank] at h ⊢
    rcases h with h | h
    · split
      · rfl
      · rw [hright _ h]
        rfl
    · rw [h]
  | removeMember guid =>
    simp only [handle,target,handleRemoveMember] at h ⊢
    rcases h with h | h
    · rw [hright _ h]
      rfl
    · rw [h]
      exact ite_self g

/-- What a handler comes to: its effect on an accepted packet to another member,
and nothing otherwise. -/
def Settles (g : Guild) (player : UInt32) (a t : Member) (op : MemberOp) : Prop :=
  (player≠target op ∧ Accepted g player a t op ∧ handle g player op=effect g t op) ∨
  (player=target op ∨ ¬Accepted g player a t op) ∧ handle g player op=g

section Settles

variable {g : Guild} {player : UInt32} {a t : Member}

theorem demote_settles {guid : UInt64} (ha : getMember g player=some a)
    (ht : getMember g (GUID_LOPART guid)=some t) :
    Settles g player a t (.updateMemberRank guid true) := by
  obtain ⟨-,hguid⟩ := getMember_eq_some.mp ht
  simp only [Settles,target,Accepted,handle,effect,handleUpdateMemberRank,ha,ht,isRankNotLower,
    if_true,decide_eq_true_eq]
  by_cases hr : hasRankRight g player GR_RIGHT_DEMOTE=true
  · simp only [hr,Bool.not_true,Bool.false_eq_true,if_false]
    by_cases hp : t.guid=player
    · exact Or.inr ⟨Or.inl (hp.symm.trans hguid),if_pos hp⟩
    by_cases hlow : t.rankId ≤ a.rankId
    · refine Or.inr ⟨Or.inr fun h => absurd h.2.1 (UInt8.not_lt.mpr hlow),?_⟩
      rw [if_neg hp,if_pos hlow]
    by_cases hbottom : getLowestRankId g ≤ t.rankId
    · refine Or.inr ⟨Or.inr fun h => absurd h.2.2 (UInt8.not_lt.mpr hbottom),?_⟩
      rw [if_neg hp,if_neg hlow,if_pos hbottom]
    · refine Or.inl ⟨fun h => hp (hguid.trans h.symm),
        ⟨trivial,UInt8.not_le.mp hlow,UInt8.not_le.mp hbottom⟩,?_⟩
      rw [if_neg hp,if_neg hlow,if_neg hbottom]
  · refine Or.inr ⟨Or.inr fun h => hr h.1,?_⟩
    rw [Bool.eq_false_iff.mpr hr]
    rfl

theorem promote_settles {guid : UInt64} (ha : getMember g player=some a)
    (ht : getMember g (GUID_LOPART guid)=some t) :
    Settles g player a t (.updateMemberRank guid false) := by
  obtain ⟨-,hguid⟩ := getMember_eq_some.mp ht
  simp only [Settles,target,Accepted,handle,effect,handleUpdateMemberRank,ha,ht,isRankNotLower,
    Bool.false_eq_true,if_false,decide_eq_true_eq]
  by_cases hr : hasRankRight g player GR_RIGHT_PROMOTE=true
  · simp only [hr,Bool.not_true,Bool.false_eq_true,if_false]
    by_cases hp : t.guid=player
    · exact Or.inr ⟨Or.inl (hp.symm.trans hguid),if_pos hp⟩
    by_cases hlow : t.rankId ≤ a.rankId+1
    · refine Or.inr ⟨Or.inr fun h => absurd h.2 (UInt8.not_lt.mpr hlow),?_⟩
      rw [if_neg hp,if_pos hlow]
    · refine Or.inl ⟨fun h => hp (hguid.trans h.symm),⟨trivial,UInt8.not_le.mp hlow⟩,?_⟩
      rw [if_neg hp,if_neg hlow]
  · refine Or.inr ⟨Or.inr fun h => hr h.1,?_⟩
    rw [Bool.eq_false_iff.mpr hr]
    rfl

theorem setMemberRank_settles {guid : UInt64} (rank : UInt32)
    (ht : getMember g (GUID_LOPART guid)=some t) :
    Settles g player a t (.setMemberRank guid rank) := by
  obtain ⟨-,hguid⟩ := getMember_eq_some.mp ht
  simp only [Settles,target,Accepted,handle,effect,handleSetMemberRank,sendGuildRanksUpdate,ht]
  by_cases hr : hasRankRight g player (setMemberRankRight t rank)=true
  · simp only [hr,Bool.not_true,Bool.false_eq_true,if_false]
    by_cases hp : t.guid=player
    · exact Or.inr ⟨Or.inl (hp.symm.trans hguid),if_pos hp⟩
    · exact Or.inl ⟨fun h => hp (hguid.trans h.symm),trivial,if_neg hp⟩
  · refine Or.inr ⟨Or.inr hr,?_⟩
    rw [Bool.eq_false_iff.mpr hr]
    rfl

theorem removeMember_settles {guid : UInt64} (ha : getMember g player=some a)
    (ht : getMember g (GUID_LOPART guid)=some t) :
    Settles g player a t (.removeMember guid) := by
  simp only [Settles,target,Accepted,handle,effect,handleRemoveMember,ha,ht,isRankNotLower,
    decide_eq_true_eq]
  by_cases hr : hasRankRight g player GR_RIGHT_REMOVE=true
  · simp only [hr,Bool.not_true,Bool.false_eq_true,if_false]
    by_cases hmaster : t.rankId=GR_GUILDMASTER
    · exact Or.inr ⟨Or.inr fun h => h.2.1 hmaster,if_pos hmaster⟩
    by_cases hlow : t.rankId ≤ a.rankId
    · refine Or.inr ⟨Or.inr fun h => absurd h.2.2 (UInt8.not_lt.mpr hlow),?_⟩
      rw [if_neg hmaster,if_pos hlow]
    refine Or.inl ⟨fun h => ?_,⟨trivial,hmaster,UInt8.not_le.mp hlow⟩,?_⟩
    · rw [h,ht] at ha
      cases ha
      exact hlow (UInt8.le_refl _)
    · rw [if_neg hmaster,if_neg hlow]
  · refine Or.inr ⟨Or.inr fun h => hr h.1,?_⟩
    rw [Bool.eq_false_iff.mpr hr]
    rfl

/-- Every packet between two members settles so. -/
theorem handle_settles (op : MemberOp) (ha : getMember g player=some a)
    (ht : getMember g (target op)=some t) : Settles g player a t op := by
  cases op with
  | updateMemberRank guid demote =>
    cases demote with
    | true => exact demote_settles ha ht
    | false => exact promote_settles ha ht
  | setMemberRank guid rank => exact setMemberRank_settles rank ht
  | removeMember guid => exact removeMember_settles ha ht

end Settles

/-- A change of the target's rank keeps the policy if it changes nothing or
goes from a rank below the actor's to an existing one, with the right for it. -/
theorem respects_changeRank {g : Guild} {player target : UInt32} {a t : Member} {r : UInt8}
    (ha : getMember g player=some a) (ht : getMember g target=some t) (hne : player≠target) :
    Respects g (changeRank g target r) player target ↔ r=t.rankId ∨
      a.rankId < t.rankId ∧ a.rankId < r ∧ r.toNat < g.ranks.length ∧
        Carries g a (rightFor t.rankId r) := by
  have hothers : ∀ guid, guid≠target →
      getMember (changeRank g target r) guid=getMember g guid := by
    intro guid hguid
    rw [getMember_changeRank,if_neg hguid]
  have hself : getMember (changeRank g target r) target=some {t with rankId := r} := by
    rw [getMember_changeRank,if_pos rfl,ht,Option.map_some]
  constructor
  · rintro (hsame | ⟨a',t',ha',ht',-,hlt,-,hafter⟩)
    · have heq := hsame target
      rw [hself,ht,Option.some.injEq] at heq
      exact Or.inl (congrArg Member.rankId heq)
    · rw [ha,Option.some.injEq] at ha'
      rw [ht,Option.some.injEq] at ht'
      subst ha' ht'
      rw [hself] at hafter
      exact Or.inr ⟨hlt,hafter⟩
  · rintro (rfl | ⟨hlt,hafter⟩)
    · refine Or.inl fun guid => ?_
      by_cases hguid : guid=target
      · rw [hguid,hself,ht]
      · exact hothers guid hguid
    · refine Or.inr ⟨a,t,ha,ht,hne,hlt,hothers,?_⟩
      rw [hself]
      exact hafter

/-- Where the actor's rank carries a right, it exists and is not the last `uint8`. -/
theorem Carries.lt {g : Guild} {a : Member} {right : UInt32} (h : Carries g a right) :
    a.rankId < getRanksSize g := by
  unfold Carries getRankRights getRankInfo at h
  by_cases hlt : a.rankId < getRanksSize g
  · exact hlt
  · simp only [hlt,if_false,UInt32.zero_and,ne_eq,not_true_eq_false] at h

/-- The size of the rank vector as the `uint8` the checks use. -/
theorem toNat_getRanksSize (g : Guild) : (getRanksSize g).toNat=g.ranks.length%256 :=
  UInt8.toNat_ofNat'

/-- One rank down from above the lowest is an existing rank below the actor's. -/
theorem demote_lawful {g : Guild} {a t : Member} (hlt : a.rankId < t.rankId)
    (hlow : t.rankId < getLowestRankId g) :
    (t.rankId+1=t.rankId ∨ a.rankId < t.rankId ∧ a.rankId < t.rankId+1 ∧
      (t.rankId+1).toNat < g.ranks.length ∧ Carries g a (rightFor t.rankId (t.rankId+1))) ↔
    Carries g a GR_RIGHT_DEMOTE := by
  have hsize := toNat_getRanksSize g
  have hlow' : t.rankId.toNat < (getRanksSize g-1).toNat := UInt8.lt_iff_toNat_lt.mp hlow
  have hlt' := UInt8.lt_iff_toNat_lt.mp hlt
  have hnext : (t.rankId+1).toNat=t.rankId.toNat+1 := by
    have hbound := (getRanksSize g-1).toNat_lt
    rw [UInt8.toNat_add]
    simp only [UInt8.toNat_one]
    omega
  have hup : t.rankId < t.rankId+1 := UInt8.lt_iff_toNat_lt.mpr (by omega)
  have hne : t.rankId+1≠t.rankId := fun h => absurd (h ▸ hup) (UInt8.lt_irrefl _)
  have hright : rightFor t.rankId (t.rankId+1)=GR_RIGHT_DEMOTE := if_pos hup
  rw [hright]
  constructor
  · rintro (h | ⟨-,-,-,h⟩)
    · exact absurd h hne
    · exact h
  · intro h
    have hpos := UInt8.lt_iff_toNat_lt.mp h.lt
    have hlast : (getRanksSize g-1).toNat=(getRanksSize g).toNat-1 := by
      rw [UInt8.toNat_sub_of_le _ _ (UInt8.le_iff_toNat_le.mpr (by simp only [UInt8.toNat_one]; omega))]
      rfl
    exact Or.inr ⟨hlt,UInt8.lt_trans hlt hup,by omega,h⟩

/-- One rank up to below the actor's own is an existing rank when the target's
rank is at most one past the last. -/
theorem promote_lawful {g : Guild} {a t : Member} (hlt : a.rankId+1 < t.rankId) :
    (t.rankId-1=t.rankId ∨ a.rankId < t.rankId ∧ a.rankId < t.rankId-1 ∧
      (t.rankId-1).toNat < g.ranks.length ∧ Carries g a (rightFor t.rankId (t.rankId-1))) ↔
    Carries g a GR_RIGHT_PROMOTE ∧ t.rankId.toNat ≤ g.ranks.length := by
  have hlt' := UInt8.lt_iff_toNat_lt.mp hlt
  have hprev : (t.rankId-1).toNat=t.rankId.toNat-1 := by
    rw [UInt8.toNat_sub_of_le _ _ (UInt8.le_iff_toNat_le.mpr (by simp only [UInt8.toNat_one]; omega))]
    rfl
  have hdown : t.rankId-1 < t.rankId := UInt8.lt_iff_toNat_lt.mpr (by omega)
  have hright : rightFor t.rankId (t.rankId-1)=GR_RIGHT_PROMOTE :=
    if_neg (UInt8.not_lt.mpr (UInt8.le_of_lt hdown))
  rw [hright]
  constructor
  · rintro (h | ⟨-,-,hlen,h⟩)
    · exact absurd (h ▸ hdown) (UInt8.lt_irrefl _)
    · exact ⟨h,by omega⟩
  · rintro ⟨h,hlen⟩
    have hsize := UInt8.lt_iff_toNat_lt.mp h.lt
    have hbound := (getRanksSize g).toNat_lt
    have hnext : (a.rankId+1).toNat=a.rankId.toNat+1 := by
      rw [UInt8.toNat_add]
      simp only [UInt8.toNat_one]
      omega
    exact Or.inr ⟨UInt8.lt_iff_toNat_lt.mpr (by omega),UInt8.lt_iff_toNat_lt.mpr (by omega),
      by omega,h⟩

/-- Removal keeps the policy if the actor carries the right and no other member
becomes the leader with a new rank. -/
theorem respects_deleteMember {g : Guild} {player : UInt32} {guid : UInt64} {a t : Member}
    (ha : getMember g player=some a) (ht : getMember g (GUID_LOPART guid)=some t)
    (hne : player≠GUID_LOPART guid) (hlt : a.rankId < t.rankId) :
    Respects g (deleteMember g guid) player (GUID_LOPART guid) ↔ Carries g a GR_RIGHT_REMOVE ∧
      (g.leaderGuid.toUInt64=guid → ∃ m∈g.members, m.guid≠t.guid ∧ m.rankId=GR_GUILDMASTER) := by
  obtain ⟨hamem,hguid⟩ := getMember_eq_some.mp ha
  obtain ⟨-,htguid⟩ := getMember_eq_some.mp ht
  have hgone : getMember (deleteMember g guid) (GUID_LOPART guid)=none := by
    unfold deleteMember
    simp only
    split
    · split
      · rw [getMember_eraseMember,if_pos rfl]
      · rfl
    · rw [getMember_eraseMember,if_pos rfl]
  have hreduce : Respects g (deleteMember g guid) player (GUID_LOPART guid) ↔
      Carries g a GR_RIGHT_REMOVE ∧ ∀ k, k≠GUID_LOPART guid →
        getMember (deleteMember g guid) k=getMember g k := by
    constructor
    · rintro (hsame | ⟨a',t',ha',-,-,-,hothers,hafter⟩)
      · have heq := hsame (GUID_LOPART guid)
        rw [hgone,ht] at heq
        cases heq
      · rw [ha,Option.some.injEq] at ha'
        subst ha'
        rw [hgone] at hafter
        exact ⟨hafter,hothers⟩
    · rintro ⟨hright,hothers⟩
      refine Or.inr ⟨a,t,ha,ht,hne,hlt,hothers,?_⟩
      rw [hgone]
      exact hright
  rw [hreduce]
  refine and_congr_right fun _ => ?_
  by_cases hleader : g.leaderGuid.toUInt64=guid
  · obtain ⟨l,hl,hlmem,hlne,hbest⟩ := newLeader_spec hamem (hguid.trans_ne hne)
    have hdelete : deleteMember g guid=eraseMember (setLeaderGUID g l) (GUID_LOPART guid) := by
      simp only [deleteMember,hleader,if_true,hl]
    have hlook : ∀ k, k≠GUID_LOPART guid → getMember (deleteMember g guid) k=
        if k=l.guid then (getMember g k).map fun m => {m with rankId := GR_GUILDMASTER}
        else getMember g k := by
      intro k hk
      rw [hdelete,getMember_eraseMember,if_neg hk,setLeaderGUID,getMember_changeRank]
      rfl
    have hlget : getMember g l.guid=some l := getMember_eq_some.mpr ⟨hlmem,rfl⟩
    constructor
    · intro hothers _
      have heq := hothers l.guid hlne
      rw [hlook _ hlne,if_pos rfl,hlget,Option.map_some,Option.some.injEq] at heq
      exact ⟨l,hlmem,htguid ▸ hlne,(congrArg Member.rankId heq).symm⟩
    · intro hmaster k hk
      obtain ⟨m,hm,hmne,hrank⟩ := hmaster hleader
      have hzero : l.rankId=GR_GUILDMASTER := by
        have hle := hbest m hm (htguid ▸ hmne)
        rw [hrank] at hle
        exact UInt8.le_antisymm hle (UInt8.zero_le)
      rw [hlook k hk]
      split
      · rename_i hkl
        rw [hkl,hlget,Option.map_some,←hzero]
      · rfl
  · have hdelete : deleteMember g guid=eraseMember g (GUID_LOPART guid) := by
      simp only [deleteMember,hleader,if_false]
    rw [hdelete]
    exact ⟨fun _ h => absurd h hleader,fun _ k hk => by rw [getMember_eraseMember,if_neg hk]⟩

/-- Once its checks pass, a handler keeps the policy exactly on what they leave open. -/
theorem respects_effect {g : Guild} {player : UInt32} {op : MemberOp} {a t : Member}
    (ha : getMember g player=some a) (ht : getMember g (target op)=some t)
    (hne : player≠target op) (hacc : Accepted g player a t op) :
    Respects g (effect g t op) player (target op) ↔ Lawful g a t op := by
  obtain ⟨-,hguid⟩ := getMember_eq_some.mp ht
  cases op with
  | updateMemberRank guid demote =>
    cases demote with
    | true =>
      simp only [effect,hguid,if_true]
      exact (respects_changeRank ha ht hne).trans (demote_lawful hacc.2.1 hacc.2.2)
    | false =>
      simp only [effect,hguid,Bool.false_eq_true,if_false]
      exact (respects_changeRank ha ht hne).trans (promote_lawful hacc.2)
  | setMemberRank guid rank =>
    simp only [effect,hguid]
    exact respects_changeRank ha ht hne
  | removeMember guid => exact respects_deleteMember ha ht hne hacc.2.2

/-- A handler keeps the policy on proper packets and on no others. -/
theorem respects_handle (g : Guild) (player : UInt32) (op : MemberOp) :
    Respects g (handle g player op) player (target op) ↔ Proper g player op := by
  have hsame : handle g player op=g → Respects g (handle g player op) player (target op) := by
    intro h
    exact Or.inl fun guid => by rw [h]
  cases ha : getMember g player with
  | none =>
    refine iff_of_true (hsame (handle_absent op (Or.inl ha))) ?_
    intro a t ha'
    cases ha.symm.trans ha'
  | some a =>
    cases ht : getMember g (target op) with
    | none =>
      refine iff_of_true (hsame (handle_absent op (Or.inr ht))) ?_
      intro a t _ ht'
      cases ht.symm.trans ht'
    | some t =>
      have hproper : Proper g player op ↔
          (player≠target op → Accepted g player a t op → Lawful g a t op) := by
        constructor
        · exact fun h => h a t ha ht
        intro h a' t' ha' ht'
        rw [ha,Option.some.injEq] at ha'
        rw [ht,Option.some.injEq] at ht'
        subst ha' ht'
        exact h
      rw [hproper]
      rcases handle_settles op ha ht with ⟨hne,hacc,heq⟩ | ⟨hskip,heq⟩
      · rw [heq,respects_effect ha ht hne hacc]
        exact ⟨fun h _ _ => h,fun h => h hne hacc⟩
      refine iff_of_true (hsame heq) fun hne hacc => ?_
      rcases hskip with h | h
      · exact absurd h hne
      · exact absurd hacc h

/-- A member of the highest rank. -/
def Master (g : Guild) (guid : UInt32) : Prop :=
  ∃ m, getMember g guid=some m ∧ m.rankId=GR_GUILDMASTER

/-- One packet of a member. -/
def step (g : Guild) (a : UInt32×MemberOp) : Guild := handle g a.1 a.2

/-- A proper packet. -/
def ProperStep (g : Guild) (a : UInt32×MemberOp) : Prop := Proper g a.1 a.2

/-- Under the policy the actor stays as it is. -/
theorem Respects.actor {g g' : Guild} {player target : UInt32} (h : Respects g g' player target) :
    getMember g' player=getMember g player := by
  rcases h with hsame | ⟨_,_,_,_,hne,_,hothers,_⟩
  · exact hsame player
  · exact hothers player hne

/-- Under the policy nobody comes to the highest rank or leaves it. -/
theorem Respects.master {g g' : Guild} {player target : UInt32} (h : Respects g g' player target)
    (guid : UInt32) : Master g' guid ↔ Master g guid := by
  rcases h with hsame | ⟨a,t,ha,ht,hne,hlt,hothers,hafter⟩
  · unfold Master
    rw [hsame guid]
  · by_cases hguid : guid=target
    · subst hguid
      have hold : ¬Master g guid := by
        rintro ⟨m,hm,hzero⟩
        rw [ht,Option.some.injEq] at hm
        subst hm
        rw [hzero] at hlt
        exact absurd hlt (UInt8.not_lt.mpr UInt8.zero_le)
      refine iff_of_false ?_ hold
      rintro ⟨m,hm,hzero⟩
      rw [hm] at hafter
      have hlt' := hafter.1
      rw [hzero] at hlt'
      exact absurd hlt' (UInt8.not_lt.mpr UInt8.zero_le)
    · unfold Master
      rw [hothers guid hguid]

/-- The handlers keep the policy on proper packets and on no others, and along
every run of proper packets the members of the highest rank stay the same and
no packet changes its sender. -/
theorem guild_authorization (g : Guild) (ops : List (UInt32×MemberOp)) :
    (∀ player op, Respects g (handle g player op) player (target op) ↔ Proper g player op) ∧
    (Meets step ProperStep g ops →
      (∀ guid, Master (run step g ops) guid ↔ Master g guid) ∧
      ∀ before a after, ops=before++a::after →
        getMember (run step g (before++[a])) a.1=getMember (run step g before) a.1) := by
  refine ⟨respects_handle g,fun hm => ⟨fun guid => ?_,?_⟩⟩
  · refine run_invariant (I := fun g' => Master g' guid ↔ Master g guid) ?_ Iff.rfl hm
    intro s a hs hc
    exact (((respects_handle s a.1 a.2).mpr hc).master guid).trans hs
  · rintro before a after rfl
    have hc : ProperStep (run step g before) a := (meets_append.mp hm).2.1
    rw [run_append]
    exact ((respects_handle _ a.1 a.2).mpr hc).actor

/-- A guild of five ranks with its leader, an officer and an initiate. -/
def sample : Guild where
  leaderGuid := 1
  ranks := [⟨0,"",GR_RIGHT_ALL,0⟩,⟨1,"",GR_RIGHT_ALL,0⟩,⟨2,"",67,0⟩,⟨3,"",67,0⟩,⟨4,"",67,0⟩]
  members := [⟨1,"",0⟩,⟨2,"",1⟩,⟨3,"",4⟩]
  nodup := by decide

/-- The officer may take the initiate one rank up, and the leader stays alone. -/
theorem guild_authorization_promotion :
    Master (run step sample [(2,.updateMemberRank 3 false)]) 3 ↔ Master sample 3 := by
  refine ((guild_authorization sample [(2,.updateMemberRank 3 false)]).2 ⟨?_,trivial⟩).1 3
  intro a t ha ht _ _
  cases ha
  cases ht
  exact ⟨by decide,by decide⟩

/-- The officer sets the initiate's rank to the highest, above its own. -/
theorem setMemberRank_escalates :
    (¬∀ g player op, Respects g (handle g player op) player (target op)) ∧
    ¬Master sample 3 ∧ ¬Master sample 2 ∧ Master (handle sample 2 (.setMemberRank 3 0)) 3 := by
  refine ⟨fun h => ?_,?_,?_,⟨⟨3,"",0⟩,rfl,rfl⟩⟩
  · rcases h sample 2 (.setMemberRank 3 0) with hsame | ⟨a,t,_,_,_,_,_,hafter⟩
    · exact absurd (hsame 3) (by decide)
    · exact absurd hafter.1 (UInt8.not_lt.mpr UInt8.zero_le)
  · rintro ⟨m,hm,hzero⟩
    cases hm
    exact absurd hzero (by decide)
  · rintro ⟨m,hm,hzero⟩
    cases hm
    exact absurd hzero (by decide)

end Projectnelth.GuildRankAuthorization
