import Mathlib
import Projectnelth.CalendarIds

/-!
# Requests about the invites of an event

A request names an event, an invite and an invitee. It should change one invite at most, of the
event that it names, and an answer should change an invite of its sender only.
-/

namespace Projectnelth.CalendarModel

open CalendarMgr RunInvariant

/-- The event and the player of an invite. -/
def CalendarInvite.pair (invite : CalendarInvite) : ℕ×ℕ := (invite.eventId,invite.invitee)

/-- The player has an invite in the event. -/
def Held (c : CalendarMgr) (eventId guid : ℕ) : Prop :=
  (eventId,guid)∈c.invites.map CalendarInvite.pair

instance (c : CalendarMgr) (eventId guid : ℕ) : Decidable (Held c eventId guid) :=
  inferInstanceAs (Decidable (_∈_))

/-- The events have their ids, and a player has one invite at most in an event. -/
structure Tidy (c : CalendarMgr) : Prop where
  /-- The id of an event is its own. -/
  events : c.eventKeys.Nodup
  /-- A player has one invite at most in an event. -/
  unique : (c.invites.map CalendarInvite.pair).Nodup

instance (c : CalendarMgr) : Decidable (Tidy c) :=
  decidable_of_iff (c.eventKeys.Nodup ∧ (c.invites.map CalendarInvite.pair).Nodup)
    ⟨fun h => ⟨h.1,h.2⟩,fun h => ⟨h.events,h.unique⟩⟩

/-- The event locks its invites. -/
def CalendarEvent.locked (event : CalendarEvent) : Bool :=
  event.flags &&& CALENDAR_FLAG_INVITES_LOCKED≠0

/-- The invite was there before and is not there now. -/
def Gone (c c' : CalendarMgr) (invite : CalendarInvite) : Prop :=
  invite∈c.invites ∧ invite∉c'.invites

/-- What a request about an event may do, where an answer has its sender. -/
structure Within (eventId : ℕ) (answer : Option ℕ) (c c' : CalendarMgr) : Prop where
  /-- One invite at most changes or goes. -/
  gone : ∀ x y, Gone c c' x → Gone c c' y → x=y
  /-- One invite at most comes. -/
  come : ∀ x y, Gone c' c x → Gone c' c y → x=y
  /-- An invite that comes when one goes is the one that changed. -/
  same : ∀ x y, Gone c c' x → Gone c' c y → x.pair=y.pair
  named : ∀ x, Gone c c' x ∨ Gone c' c x → x.eventId=eventId
  own : ∀ guid∈answer, ∀ x, Gone c c' x ∨ Gone c' c x → x.invitee=guid
  /-- No answer gives an invite of a locked event another status than that of one removed. -/
  locked : answer.isSome → ∀ event∈c.events, event.locked → ∀ x y, Gone c c' x → Gone c' c y →
    x.eventId=event.eventId → y.status=CALENDAR_STATUS_REMOVED ∨ y.status=x.status
  /-- The creator of an event that is still there keeps his invite. -/
  creator : ∀ event∈c'.events, Held c event.eventId event.creatorGUID →
    Held c' event.eventId event.creatorGUID
  /-- A player has one invite at most in an event. -/
  tidy : Tidy c'

variable {c c' : CalendarMgr} {eventId inviteId guid : ℕ} {answer : Option ℕ}
  {invite : CalendarInvite} {event : CalendarEvent} {f : CalendarInvite → CalendarInvite}

theorem Tidy.inj (h : Tidy c) {x y : CalendarInvite} (hx : x∈c.invites) (hy : y∈c.invites)
    (hpair : x.pair=y.pair) : x=y :=
  List.inj_on_of_nodup_map h.unique hx hy hpair

/-- Nothing changes. -/
theorem Tidy.within_self (h : Tidy c) (eventId : ℕ) (answer : Option ℕ)
    (hevents : c'.events=c.events) (hinvites : c'.invites=c.invites) :
    Within eventId answer c c' := by
  have hnone : ∀ x, ¬Gone c c' x := fun x hx => hx.2 (hinvites.symm ▸ hx.1)
  have hnone' : ∀ x, ¬Gone c' c x := fun x hx => hx.2 (hinvites ▸ hx.1)
  refine ⟨fun x _ hx => absurd hx (hnone x),fun x _ hx => absurd hx (hnone' x),
    fun x _ hx => absurd hx (hnone x),fun x hx => ?_,fun _ _ x hx => ?_,
    fun _ _ _ _ x _ hx => absurd hx (hnone x),fun event _ hheld => ?_,?_⟩
  · exact hx.elim (fun hx => absurd hx (hnone x)) fun hx => absurd hx (hnone' x)
  · exact hx.elim (fun hx => absurd hx (hnone x)) fun hx => absurd hx (hnone' x)
  · unfold Held at hheld ⊢
    rw [hinvites]
    exact hheld
  · refine ⟨?_,?_⟩
    · unfold eventKeys
      rw [hevents]
      exact h.events
    · rw [hinvites]
      exact h.unique

section Modified

theorem mem_write {l : List CalendarInvite} (hl : (l.map CalendarInvite.pair).Nodup)
    (hinvite : l.find? (fun invite => invite.inviteId=inviteId)=some invite)
    (x : CalendarInvite) :
    x∈modifyInvite.write inviteId f l ↔ (x∈l ∧ x≠invite) ∨ x=f invite := by
  induction l with
  | nil => cases hinvite
  | cons y l ih =>
    obtain ⟨hnotin,hl⟩ := List.nodup_cons.mp hl
    unfold modifyInvite.write
    by_cases hy : y.inviteId=inviteId
    · rw [List.find?_cons_of_pos (by simpa using hy)] at hinvite
      obtain rfl := Option.some.inj hinvite
      rw [if_pos hy,List.mem_cons,List.mem_cons]
      have hne : x∈l → x≠y := fun hx he => hnotin (he ▸ List.mem_map_of_mem hx)
      constructor
      · rintro (rfl | hx)
        · exact Or.inr rfl
        · exact Or.inl ⟨Or.inr hx,hne hx⟩
      · rintro (⟨hx | hx,hxy⟩ | rfl)
        · exact absurd hx hxy
        · exact Or.inr hx
        · exact Or.inl rfl
    · rw [List.find?_cons_of_neg (by simpa using hy)] at hinvite
      rw [if_neg hy,List.mem_cons,ih hl hinvite,List.mem_cons]
      have hne : y≠invite := fun he =>
        hnotin (he ▸ List.mem_map_of_mem (List.mem_of_find?_eq_some hinvite))
      constructor
      · rintro (rfl | ⟨hx,hxi⟩ | rfl)
        · exact Or.inl ⟨Or.inl rfl,hne⟩
        · exact Or.inl ⟨Or.inr hx,hxi⟩
        · exact Or.inr rfl
      · rintro (⟨rfl | hx,hxi⟩ | rfl)
        · exact Or.inl rfl
        · exact Or.inr (Or.inl ⟨hx,hxi⟩)
        · exact Or.inr (Or.inr rfl)

/-- What goes and what comes when an invite is written. -/
theorem gone_modifyInvite (h : Tidy c) (hinvite : c.getInvite inviteId=some invite)
    (hf : ∀ invite, (f invite).pair=invite.pair) (hne : f invite≠invite) (x : CalendarInvite) :
    (Gone c (c.modifyInvite inviteId f) x ↔ x=invite) ∧
      (Gone (c.modifyInvite inviteId f) c x ↔ x=f invite) := by
  have hmem : invite∈c.invites := List.mem_of_find?_eq_some hinvite
  have hwrite : ∀ x, x∈(c.modifyInvite inviteId f).invites ↔
      (x∈c.invites ∧ x≠invite) ∨ x=f invite := mem_write h.unique hinvite
  have hnew : f invite∉c.invites := fun hmem' => hne (h.inj hmem' hmem (hf invite))
  constructor
  · constructor
    · rintro ⟨hx,hnotin⟩
      by_contra hxi
      exact hnotin ((hwrite x).mpr (Or.inl ⟨hx,hxi⟩))
    · rintro rfl
      refine ⟨hmem,fun hmem' => ?_⟩
      rcases (hwrite x).mp hmem' with ⟨-,hxx⟩ | hx
      · exact hxx rfl
      · exact hne hx.symm
  · constructor
    · rintro ⟨hx,hnotin⟩
      rcases (hwrite x).mp hx with ⟨hx,-⟩ | hx
      · exact absurd hx hnotin
      · exact hx
    · rintro rfl
      exact ⟨(hwrite _).mpr (Or.inr rfl),hnew⟩

/-- Writing an invite keeps to the request just where the invite is of the event that is named,
and an answer is that of its invitee. -/
theorem within_modifyInvite_iff (h : Tidy c) (hinvite : c.getInvite inviteId=some invite)
    (hf : ∀ invite, (f invite).pair=invite.pair) (hne : f invite≠invite)
    (hlocked : answer.isSome → ∀ event∈c.events, event.eventId=eventId → event.locked →
      (f invite).status=CALENDAR_STATUS_REMOVED) :
    Within eventId answer c (c.modifyInvite inviteId f) ↔
      invite.eventId=eventId ∧ ∀ guid∈answer, invite.invitee=guid := by
  have hgone := fun x => (gone_modifyInvite h hinvite hf hne x).1
  have hcome := fun x => (gone_modifyInvite h hinvite hf hne x).2
  have hpairs : (c.modifyInvite inviteId f).invites.map CalendarInvite.pair=
      c.invites.map CalendarInvite.pair := map_write CalendarInvite.pair hf inviteId c.invites
  have hevent : (f invite).eventId=invite.eventId := congrArg Prod.fst (hf invite)
  have hinvitee : (f invite).invitee=invite.invitee := congrArg Prod.snd (hf invite)
  constructor
  · intro hw
    exact ⟨hw.named invite (Or.inl ((hgone invite).mpr rfl)),
      fun guid hguid => hw.own guid hguid invite (Or.inl ((hgone invite).mpr rfl))⟩
  · rintro ⟨hid,hown⟩
    refine ⟨fun x y hx hy => ((hgone x).mp hx).trans ((hgone y).mp hy).symm,
      fun x y hx hy => ((hcome x).mp hx).trans ((hcome y).mp hy).symm,fun x y hx hy => ?_,
      fun x hx => ?_,fun guid hguid x hx => ?_,fun hanswer event hmem hlock x y hx hy he => ?_,
      fun event _ hheld => ?_,⟨h.events,?_⟩⟩
    · rw [(hgone x).mp hx,(hcome y).mp hy,hf]
    · rcases hx with hx | hx
      · rw [(hgone x).mp hx,hid]
      · rw [(hcome x).mp hx,hevent,hid]
    · rcases hx with hx | hx
      · rw [(hgone x).mp hx]
        exact hown guid hguid
      · rw [(hcome x).mp hx,hinvitee]
        exact hown guid hguid
    · rw [(hgone x).mp hx] at he
      rw [(hcome y).mp hy]
      exact Or.inl (hlocked hanswer event hmem (he.symm.trans hid) hlock)
    · unfold Held
      rw [hpairs]
      exact hheld
    · rw [hpairs]
      exact h.unique

end Modified

section Added

/-- A new invite keeps to the request just where the player has none in the event. -/
theorem within_pushInvite_iff (h : Tidy c) (hperm : c'.invites.Perm (invite::c.invites))
    (hevents : c'.events=c.events) (hid : invite.eventId=eventId) :
    Within eventId none c c' ↔ ¬Held c eventId invite.invitee := by
  have hpair : invite.pair=(eventId,invite.invitee) := Prod.ext hid rfl
  constructor
  · intro hw hheld
    have hunique := (hperm.map CalendarInvite.pair).nodup_iff.mp hw.tidy.unique
    exact (List.nodup_cons.mp hunique).1 (hpair ▸ hheld)
  · intro hheld
    have hnew : invite.pair∉c.invites.map CalendarInvite.pair := hpair ▸ hheld
    have hgone : ∀ x, ¬Gone c c' x := fun x hx =>
      hx.2 (hperm.mem_iff.mpr (List.mem_cons_of_mem invite hx.1))
    have hcome : ∀ x, Gone c' c x → x=invite := fun x hx =>
      (List.mem_cons.mp (hperm.mem_iff.mp hx.1)).resolve_right hx.2
    refine ⟨fun x _ hx => absurd hx (hgone x),fun x y hx hy => (hcome x hx).trans (hcome y hy).symm,
      fun x _ hx => absurd hx (hgone x),fun x hx => ?_,(by rintro _ ⟨⟩),(by rintro ⟨⟩),fun event _ hheld' => ?_,?_⟩
    · exact hx.elim (fun hx => absurd hx (hgone x)) fun hx => hcome x hx ▸ hid
    · unfold Held at hheld' ⊢
      rw [(hperm.map CalendarInvite.pair).mem_iff]
      exact List.mem_cons_of_mem _ hheld'
    · refine ⟨?_,?_⟩
      · unfold eventKeys
        rw [hevents]
        exact h.events
      · exact (hperm.map CalendarInvite.pair).nodup_iff.mpr (List.nodup_cons.mpr ⟨hnew,h.unique⟩)

end Added

section Removed

/-- An invite that goes keeps to the request just where it is not that of the creator. -/
theorem within_removed_iff (h : Tidy c) (hevent : event∈c.events) (hid : event.eventId=eventId)
    (hevents : c'.events=c.events) (hperm : c.invites.Perm (invite::c'.invites))
    (hinvite : invite.eventId=eventId) :
    Within eventId none c c' ↔ invite.invitee≠event.creatorGUID := by
  have hunique := (hperm.map CalendarInvite.pair).nodup_iff.mp h.unique
  obtain ⟨hnotin,hunique⟩ := List.nodup_cons.mp hunique
  have hgone : ∀ x, Gone c c' x → x=invite := fun x hx =>
    (List.mem_cons.mp (hperm.mem_iff.mp hx.1)).resolve_right hx.2
  have hcome : ∀ x, ¬Gone c' c x := fun x hx =>
    hx.2 (hperm.mem_iff.mpr (List.mem_cons_of_mem invite hx.1))
  constructor
  · intro hw hcreator
    have hpair : invite.pair=(event.eventId,event.creatorGUID) :=
      Prod.ext (hinvite.trans hid.symm) hcreator
    have hheld : Held c event.eventId event.creatorGUID := by
      unfold Held
      rw [← hpair,(hperm.map CalendarInvite.pair).mem_iff]
      exact List.mem_cons_self
    exact hnotin (hpair ▸ hw.creator event (hevents ▸ hevent) hheld)
  · intro hcreator
    refine ⟨fun x y hx hy => (hgone x hx).trans (hgone y hy).symm,fun x _ hx => absurd hx (hcome x),
      fun _ y _ hy => absurd hy (hcome y),fun x hx => ?_,(by rintro _ ⟨⟩),(by rintro ⟨⟩),
      fun event' hevent' hheld => ?_,?_⟩
    · exact hx.elim (fun hx => hgone x hx ▸ hinvite) fun hx => absurd hx (hcome x)
    · unfold Held at hheld
      rw [(hperm.map CalendarInvite.pair).mem_iff] at hheld
      refine (List.mem_cons.mp hheld).resolve_left fun he => hcreator ?_
      have hsame : event'=event := List.inj_on_of_nodup_map h.events (hevents ▸ hevent') hevent
        ((congrArg Prod.fst he).trans (hinvite.trans hid.symm))
      rw [hsame] at he
      exact (congrArg Prod.snd he).symm
    · refine ⟨?_,hunique⟩
      unfold eventKeys
      rw [hevents]
      exact h.events

/-- A list without repetition has one element at most where all of its elements are equal. -/
theorem length_le_one_iff {α : Type*} {l : List α} (hl : l.Nodup) :
    l.length ≤ 1 ↔ ∀ x∈l, ∀ y∈l, x=y := by
  match l with
  | [] => simp
  | [a] => simp
  | a::b::l =>
    have hne : a≠b := fun he =>
      (List.nodup_cons.mp hl).1 (he ▸ List.mem_cons_self)
    simp only [List.length_cons]
    refine ⟨fun h => by omega,fun h => absurd (h a List.mem_cons_self b ?_) hne⟩
    exact List.mem_cons_of_mem a List.mem_cons_self

/-- An event that goes with its invites keeps to the request just where it has one at most. -/
theorem within_removeEvent_iff (h : Tidy c) (hfound : c.getEvent eventId=some event) :
    Within eventId none c (c.removeEvent eventId) ↔
      (c.invites.filter fun invite => invite.eventId=eventId).length ≤ 1 := by
  have hid : event.eventId=eventId := by
    have hfound := List.find?_some hfound
    exact of_decide_eq_true hfound
  obtain ⟨pool,hpool⟩ :=
    freeInvites_same (c.invites.filter fun invite => invite.eventId=eventId) c
  have hevents : (c.removeEvent eventId).events=
      c.events.eraseP fun event => event.eventId=eventId := by
    unfold CalendarMgr.removeEvent
    rw [hfound]
    dsimp only
    rw [hpool]
    rfl
  have hinvites : (c.removeEvent eventId).invites=
      c.invites.filter fun invite => invite.eventId≠eventId := by
    unfold CalendarMgr.removeEvent
    rw [hfound]
    dsimp only
    rw [hpool]
    rfl
  have hgone : ∀ x, Gone c (c.removeEvent eventId) x ↔
      x∈c.invites.filter fun invite => invite.eventId=eventId := fun x => by
    unfold Gone
    rw [hinvites,List.mem_filter,List.mem_filter]
    simp only [ne_eq,decide_not,Bool.not_eq_true',decide_eq_false_iff_not,decide_eq_true_eq]
    tauto
  have hcome : ∀ x, ¬Gone (c.removeEvent eventId) c x := fun x hx => by
    rw [Gone,hinvites] at hx
    exact hx.2 (List.mem_of_mem_filter hx.1)
  have hnodup : (c.invites.filter fun invite => invite.eventId=eventId).Nodup :=
    (List.Nodup.of_map _ h.unique).filter _
  have hkeys := (perm_eraseP hfound).map CalendarEvent.eventId
  rw [List.map_cons] at hkeys
  obtain ⟨hnotin,hkeysNodup⟩ := List.nodup_cons.mp (hkeys.nodup_iff.mp h.events)
  constructor
  · intro hw
    refine (length_le_one_iff hnodup).mpr fun x hx y hy => ?_
    exact hw.gone x y ((hgone x).mpr hx) ((hgone y).mpr hy)
  · intro hlength
    refine ⟨fun x y hx hy => ?_,fun x _ hx => absurd hx (hcome x),fun _ y _ hy => absurd hy (hcome y),
      fun x hx => ?_,(by rintro _ ⟨⟩),(by rintro ⟨⟩),fun event' hevent' hheld => ?_,?_⟩
    · exact (length_le_one_iff hnodup).mp hlength x ((hgone x).mp hx) y ((hgone y).mp hy)
    · rcases hx with hx | hx
      · exact of_decide_eq_true (List.mem_filter.mp ((hgone x).mp hx)).2
      · exact absurd hx (hcome x)
    · rw [hevents] at hevent'
      have hne : event'.eventId≠eventId := fun he =>
        hnotin (List.mem_map.mpr ⟨event',hevent',he.trans hid.symm⟩)
      obtain ⟨x,hx,hpair⟩ := List.mem_map.mp hheld
      refine List.mem_map.mpr ⟨x,?_,hpair⟩
      rw [hinvites]
      exact List.mem_filter.mpr ⟨hx,decide_eq_true
        fun he => hne ((congrArg Prod.fst hpair).symm.trans he)⟩
    · refine ⟨?_,?_⟩
      · unfold eventKeys
        rw [hevents]
        exact hkeysNodup
      · rw [hinvites]
        exact h.unique.sublist (List.filter_sublist.map _)

end Removed

section Requests

/-- The packet is a request about the invites of an event that is there. -/
def Packet.isRequest : Packet → Bool
  | .eventSignup .. => true
  | .eventRsvp .. => true
  | .eventStatus .. => true
  | .eventModeratorStatus .. => true
  | .eventRemoveInvite .. => true
  | .removeEvent .. => true
  | _ => false

/-- The requests. -/
abbrev Request := { packet : Packet // packet.isRequest=true }

/-- The event that a packet names. -/
def Packet.named : Packet → ℕ
  | .eventSignup eventId _ _ => eventId
  | .eventRsvp eventId _ _ _ => eventId
  | .eventStatus eventId _ _ => eventId
  | .eventModeratorStatus eventId _ _ => eventId
  | .eventRemoveInvite _ _ eventId => eventId
  | .removeEvent eventId => eventId
  | _ => 0

/-- The sender of an answer. -/
def answerOf (sender : Sender) : Packet → Option ℕ
  | .eventRsvp .. => some sender.guid
  | _ => none

/-- A request is handled. -/
def handle (c : CalendarMgr) (a : Sender×Request) : CalendarMgr := c.step (a.1,a.2.1)

/-- A request stays within the event that it names. -/
def RequestLaw (c : CalendarMgr) (a : Sender×Request) : Prop :=
  Within a.2.1.named (answerOf a.1 a.2.1) c (handle c a)

/-- The ids of a request fit each other, where it is not refused. -/
def IdsFit (c : CalendarMgr) (sender : Sender) : Packet → Prop
  | .eventSignup eventId _ _ =>
    ∀ event∈c.getEvent eventId, (event.isGuildEvent && event.guildId≠sender.guildId)=true ∨
      event.isGuildAnnouncement=true ∨ ¬Held c eventId sender.guid
  | .eventRsvp eventId inviteId status now =>
    ∀ event∈c.getEvent eventId,
      (status≠CALENDAR_STATUS_REMOVED ∧ event.flags &&& CALENDAR_FLAG_INVITES_LOCKED≠0) ∨
      ∀ invite∈c.getInvite inviteId, (invite.status=status ∧ invite.statusTime=now) ∨
        (invite.eventId=eventId ∧ invite.invitee=sender.guid)
  | .eventStatus eventId inviteId status =>
    ∀ _event∈c.getEvent eventId, ∀ invite∈c.getInvite inviteId,
      invite.status=status ∨ invite.eventId=eventId
  | .eventModeratorStatus eventId inviteId rank =>
    ∀ _event∈c.getEvent eventId, ∀ invite∈c.getInvite inviteId,
      invite.rank=rank ∨ invite.eventId=eventId
  | .eventRemoveInvite invitee inviteId eventId =>
    ∀ event∈c.getEvent eventId, event.creatorGUID=invitee ∨
      ∀ invite∈c.invites.find? (fun i => i.eventId=eventId && i.inviteId=inviteId),
        invite.invitee≠event.creatorGUID
  | .removeEvent eventId =>
    ∀ _event∈c.getEvent eventId,
      (c.invites.filter fun invite => invite.eventId=eventId).length ≤ 1
  | _ => True

instance (c : CalendarMgr) (sender : Sender) (packet : Packet) :
    Decidable (IdsFit c sender packet) := by
  cases packet <;> unfold IdsFit <;> infer_instance

theorem write_self {l : List CalendarInvite}
    (hinvite : l.find? (fun invite => invite.inviteId=inviteId)=some invite)
    (hf : f invite=invite) : modifyInvite.write inviteId f l=l := by
  induction l with
  | nil => rfl
  | cons x l ih =>
    unfold modifyInvite.write
    by_cases hx : x.inviteId=inviteId
    · rw [List.find?_cons_of_pos (by simpa using hx)] at hinvite
      rw [if_pos hx,Option.some.inj hinvite,hf]
    · rw [List.find?_cons_of_neg (by simpa using hx)] at hinvite
      rw [if_neg hx,ih hinvite]

theorem write_none {l : List CalendarInvite}
    (hnone : l.find? (fun invite => invite.inviteId=inviteId)=none) :
    modifyInvite.write inviteId f l=l := by
  induction l with
  | nil => rfl
  | cons x l ih =>
    unfold modifyInvite.write
    by_cases hx : x.inviteId=inviteId
    · rw [List.find?_cons_of_pos (by simpa using hx)] at hnone
      cases hnone
    · rw [List.find?_cons_of_neg (by simpa using hx)] at hnone
      rw [if_neg hx,ih hnone]

/-- A request that writes an invite stays within its event just where the invite that is found
stays as it is, or is of the event, and an answer is that of its invitee. -/
theorem within_found_iff (h : Tidy c) (hf : ∀ invite, (f invite).pair=invite.pair)
    (hlocked : answer.isSome → ∀ event∈c.events, event.eventId=eventId → event.locked →
      ∀ invite, (f invite).status=CALENDAR_STATUS_REMOVED) :
    Within eventId answer c (c.modifyInvite inviteId f) ↔
      ∀ invite∈c.getInvite inviteId, f invite=invite ∨
        (invite.eventId=eventId ∧ ∀ guid∈answer, invite.invitee=guid) := by
  cases hinvite : c.getInvite inviteId with
  | none =>
    exact ⟨fun _ => by rintro _ ⟨⟩,fun _ => h.within_self eventId answer rfl (write_none hinvite)⟩
  | some invite =>
    simp only [Option.mem_def,Option.some.injEq,forall_eq']
    by_cases hself : f invite=invite
    · exact ⟨fun _ => Or.inl hself,
        fun _ => h.within_self eventId answer rfl (write_self hinvite hself)⟩
    · rw [within_modifyInvite_iff h hinvite hf hself
        fun ha event hmem hid hlock => hlocked ha event hmem hid hlock invite]
      exact (or_iff_right hself).symm

/-- A request stays within the event that it names just where its ids fit each other. -/
theorem requestLaw_iff (h : Tidy c) (a : Sender×Request) :
    RequestLaw c a ↔ IdsFit c a.1 a.2.1 := by
  obtain ⟨sender,packet,hrequest⟩ := a
  unfold RequestLaw handle
  have hself : ∀ eventId answer, Within eventId answer c c := fun eventId answer =>
    h.within_self eventId answer rfl rfl
  cases packet with
  | addEvent => cases hrequest
  | updateEvent => cases hrequest
  | copyEvent => cases hrequest
  | eventInvite => cases hrequest
  | eventSignup eventId tentative now =>
    show Within eventId none c (c.handleCalendarEventSignup sender eventId tentative now) ↔ _
    unfold CalendarMgr.handleCalendarEventSignup IdsFit
    dsimp only
    cases hevent : c.getEvent eventId with
    | none => exact ⟨fun _ => by rintro _ ⟨⟩,fun _ => hself eventId none⟩
    | some event =>
      simp only [Option.mem_def,Option.some.injEq,forall_eq']
      by_cases hguild : (event.isGuildEvent && event.guildId≠sender.guildId)=true
      · rw [if_pos hguild]
        exact ⟨fun _ => Or.inl hguild,fun _ => hself eventId none⟩
      rw [if_neg hguild,or_iff_right hguild]
      unfold CalendarMgr.addInvite
      by_cases hplain : event.isGuildAnnouncement=true
      · rw [hplain,if_neg (by decide)]
        exact ⟨fun _ => Or.inl rfl,fun _ => h.within_self eventId none rfl rfl⟩
      rw [if_pos (by simpa using hplain),or_iff_right hplain]
      have hperm := perm_pushInvite c.getFreeInviteId.2 ⟨c.getFreeInviteId.1,eventId,
        sender.guid,sender.guid,now,
        if tentative then CALENDAR_STATUS_TENTATIVE else CALENDAR_STATUS_SIGNED_UP,
        CALENDAR_RANK_PLAYER⟩
      exact within_pushInvite_iff h hperm rfl rfl
  | eventRsvp eventId inviteId status now =>
    show Within eventId (some sender.guid) c
      (c.handleCalendarEventRsvp eventId inviteId status now) ↔ _
    unfold CalendarMgr.handleCalendarEventRsvp IdsFit
    dsimp only
    cases hevent : c.getEvent eventId with
    | none => exact ⟨fun _ => by rintro _ ⟨⟩,fun _ => hself eventId _⟩
    | some event =>
      simp only [Option.mem_def,Option.some.injEq,forall_eq']
      by_cases hlock :
        status≠CALENDAR_STATUS_REMOVED ∧ event.flags &&& CALENDAR_FLAG_INVITES_LOCKED≠0
      · rw [if_pos hlock]
        exact ⟨fun _ => Or.inl hlock,fun _ => hself eventId _⟩
      rw [if_neg hlock,or_iff_right hlock]
      refine (within_found_iff h ?_ ?_).trans ?_
      · exact fun _ => rfl
      rotate_left
      · refine forall_congr' fun invite => forall_congr' fun _ => or_congr ?_ ?_
        · constructor
          · intro he
            exact ⟨(congrArg CalendarInvite.status he).symm,
              (congrArg CalendarInvite.statusTime he).symm⟩
          · rintro ⟨rfl,rfl⟩
            rfl
        · simp only [Option.mem_def,Option.some.injEq,forall_eq']
      · intro _ event' hmem hid hlocked _
        have hsame : event'=event := by
          refine List.inj_on_of_nodup_map h.events hmem (List.mem_of_find?_eq_some hevent) ?_
          have hfound := List.find?_some hevent
          exact hid.trans (of_decide_eq_true hfound).symm
        subst hsame
        by_contra hstatus
        exact hlock ⟨hstatus,of_decide_eq_true hlocked⟩
  | eventStatus eventId inviteId status =>
    show Within eventId none c (c.handleCalendarEventStatus eventId inviteId status) ↔ _
    unfold CalendarMgr.handleCalendarEventStatus IdsFit
    dsimp only
    cases hevent : c.getEvent eventId with
    | none => exact ⟨fun _ => by rintro _ ⟨⟩,fun _ => hself eventId none⟩
    | some event =>
      simp only [Option.mem_def,Option.some.injEq,forall_eq']
      refine (within_found_iff h ?_ ?_).trans ?_
      · exact fun _ => rfl
      · rintro ⟨⟩
      refine forall_congr' fun invite => forall_congr' fun _ => or_congr ?_ ?_
      · constructor
        · intro he
          exact (congrArg CalendarInvite.status he).symm
        · rintro rfl
          rfl
      · exact and_iff_left (by rintro _ ⟨⟩)
  | eventModeratorStatus eventId inviteId rank =>
    show Within eventId none c (c.handleCalendarEventModeratorStatus eventId inviteId rank) ↔ _
    unfold CalendarMgr.handleCalendarEventModeratorStatus IdsFit
    dsimp only
    cases hevent : c.getEvent eventId with
    | none => exact ⟨fun _ => by rintro _ ⟨⟩,fun _ => hself eventId none⟩
    | some event =>
      simp only [Option.mem_def,Option.some.injEq,forall_eq']
      refine (within_found_iff h ?_ ?_).trans ?_
      · exact fun _ => rfl
      · rintro ⟨⟩
      refine forall_congr' fun invite => forall_congr' fun _ => or_congr ?_ ?_
      · constructor
        · intro he
          exact (congrArg CalendarInvite.rank he).symm
        · rintro rfl
          rfl
      · exact and_iff_left (by rintro _ ⟨⟩)
  | eventRemoveInvite invitee inviteId eventId =>
    show Within eventId none c (c.handleCalendarEventRemoveInvite invitee inviteId eventId) ↔ _
    unfold CalendarMgr.handleCalendarEventRemoveInvite IdsFit
    dsimp only
    cases hevent : c.getEvent eventId with
    | none => exact ⟨fun _ => by rintro _ ⟨⟩,fun _ => hself eventId none⟩
    | some event =>
      simp only [Option.mem_def,Option.some.injEq,forall_eq']
      by_cases hcreator : event.creatorGUID=invitee
      · rw [if_pos hcreator]
        exact ⟨fun _ => Or.inl hcreator,fun _ => hself eventId none⟩
      rw [if_neg hcreator,or_iff_right hcreator]
      unfold CalendarMgr.removeInvite
      rw [hevent]
      dsimp only
      cases hinvite : c.invites.find? fun i => i.eventId=eventId && i.inviteId=inviteId with
      | none => exact ⟨fun _ => by rintro _ ⟨⟩,fun _ => hself eventId none⟩
      | some invite =>
        simp only [Option.some.injEq,forall_eq']
        have hfound := List.find?_some hevent
        have hid := List.find?_some hinvite
        rw [Bool.and_eq_true] at hid
        exact within_removed_iff h (List.mem_of_find?_eq_some hevent)
          (of_decide_eq_true hfound) rfl (perm_eraseP hinvite) (of_decide_eq_true hid.1)
  | removeEvent eventId =>
    show Within eventId none c (c.removeEvent eventId) ↔ _
    unfold IdsFit
    dsimp only
    cases hevent : c.getEvent eventId with
    | none =>
      have hsame : c.removeEvent eventId=c := by
        unfold CalendarMgr.removeEvent
        rw [hevent]
      rw [hsame]
      exact ⟨fun _ => by rintro _ ⟨⟩,fun _ => hself eventId none⟩
    | some event =>
      simp only [Option.mem_def,Option.some.injEq,forall_eq']
      exact within_removeEvent_iff h hevent

/-- From a tidy calendar, every request of a run stays within the event that it names just where
the ids of every request fit each other. -/
theorem calendar_requests_within_iff (h : Tidy c) (as : List (Sender×Request)) :
    Meets handle RequestLaw c as ↔ Meets handle (fun c a => IdsFit c a.1 a.2.1) c as :=
  meets_iff (fun _ a hc => requestLaw_iff hc a) (fun _ _ _ hlaw => hlaw.tidy) h

/-- Two events of the players 7 and 8, each with the invite of its creator. The second one locks
its invites. -/
def twoEvents : CalendarMgr where
  events := [⟨1,7,0,0⟩,⟨2,8,0,CALENDAR_FLAG_INVITES_LOCKED⟩]
  invites := [⟨1,1,7,7,0,1,2⟩,⟨2,2,8,8,0,1,2⟩]
  eventIds := ⟨2,[]⟩
  inviteIds := ⟨2,[]⟩
  givenEventIds := []
  givenInviteIds := []

/-- A player signs up and answers, is made a moderator, and his invite and an event go. -/
theorem calendar_requests_within_sample :
    Meets handle RequestLaw twoEvents [(⟨9,0⟩,⟨.eventSignup 1 false 5,rfl⟩),
      (⟨9,0⟩,⟨.eventRsvp 1 3 2 6,rfl⟩),(⟨7,0⟩,⟨.eventStatus 1 3 1,rfl⟩),
      (⟨7,0⟩,⟨.eventModeratorStatus 1 3 1,rfl⟩),(⟨7,0⟩,⟨.eventRemoveInvite 9 3 1,rfl⟩),
      (⟨8,0⟩,⟨.removeEvent 2,rfl⟩)] :=
  (calendar_requests_within_iff (by decide) _).mpr (by decide)

/-- An answer that names the event of its sender gives the invite of another player in a locked
event a status, a removal that names nobody takes the invite of the creator, and a player signs
up twice. -/
theorem answers_removes_and_signs_twice :
    let answered := handle twoEvents (⟨7,0⟩,⟨.eventRsvp 1 2 2 6,rfl⟩)
    let removed := handle twoEvents (⟨9,0⟩,⟨.eventRemoveInvite 0 1 1,rfl⟩)
    let signed := handle (handle twoEvents (⟨9,0⟩,⟨.eventSignup 1 false 5,rfl⟩))
      (⟨9,0⟩,⟨.eventSignup 1 false 6,rfl⟩)
    answered.invites=[⟨1,1,7,7,0,1,2⟩,⟨2,2,8,8,6,2,2⟩] ∧
      ¬RequestLaw twoEvents (⟨7,0⟩,⟨.eventRsvp 1 2 2 6,rfl⟩) ∧
      removed.invites=[⟨2,2,8,8,0,1,2⟩] ∧ removed.events=twoEvents.events ∧
      ¬RequestLaw twoEvents (⟨9,0⟩,⟨.eventRemoveInvite 0 1 1,rfl⟩) ∧
      signed.invites.map CalendarInvite.pair=[(1,7),(1,9),(1,9),(2,8)] ∧ ¬Tidy signed := by
  refine ⟨by decide,fun h => ?_,by decide,by decide,fun h => ?_,by decide,by decide⟩
  · have hown := h.own 7 rfl ⟨2,2,8,8,0,1,2⟩ (Or.inl ⟨by decide,by decide⟩)
    exact absurd hown (by decide)
  · exact absurd (h.creator ⟨1,7,0,0⟩ (by decide) (by decide)) (by decide)

end Requests

end Projectnelth.CalendarModel
